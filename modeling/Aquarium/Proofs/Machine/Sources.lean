import Aquarium.Proofs.Grid.Loading
import Aquarium.Proofs.Machine.Disguise

/-!
# What a program is loaded from

A machine remembers the text of its source, but it works on the grid.  So the source goes through
every call of the host as it is (`apply_withSource`), and two sources that are loaded to the same
grid make the same program: it gives the same answers, and in the end the machines differ in
nothing but the text they remember (`after_load_of_ofSource_eq`).

The line endings of a source are such a difference.  A text is loaded to a grid that holds its
lines (`Grid.holds_ofLines`), and what ends a line, a newline alone or with a carriage return in
front, does not get into the grid.
-/

namespace Aquarium

variable {κ : Type}

/-- Another source, as a disguise. -/
def Disguise.resourced (source : String) : Disguise κ κ where
  source _ := source
  stack := id
  input := id
  output := id
  compass := id
  stack_push := Disguise.stack_push_id
  output_write := Disguise.output_write_id

namespace Machine

/-- The machine with another text remembered as its source. -/
def withSource (source : String) (m : Machine κ) : Machine κ := { m with source := source }

lemma giveText_withSource (source text : String) (m : Machine κ) :
    (m.withSource source).giveText text = (m.giveText text).map (withSource source) := by
  simp only [giveText]
  rcases text.toList with _ | ⟨c, _ | ⟨d, rest⟩⟩ <;> rfl

lemma takeOutput_withSource (source : String) (m : Machine κ) :
    (m.withSource source).takeOutput = m.takeOutput.map (Prod.map id (withSource source)) := by
  have houtput : (m.withSource source).output = m.output := rfl
  simp only [takeOutput, houtput]
  cases m.output.read <;> rfl

variable [Compass κ]

/-- No step looks at the source. -/
lemma step_withSource (source : String) (m : Machine κ) :
    (m.withSource source).step = m.step.map (withSource source) := by
  refine (Disguise.resourced source).step_apply fun c i _ _ => ?_
  refine Disguise.hides_of_stack_eq_id _ rfl ?_ ?_
  · rintro mirror rfl
    rfl
  · rintro rfl
    exact Disguise.hides_input _ rfl m

/-- No call of the host looks at the source either. -/
lemma apply_withSource (source : String) (call : HostCall) (m : Machine κ) :
    call.apply (m.withSource source) = (call.apply m).withSource source := by
  cases call with
  | step =>
      simp only [HostCall.apply, step_withSource]
      cases m.step <;> rfl
  | giveText text =>
      simp only [HostCall.apply, giveText_withSource]
      cases m.giveText text <;> rfl
  | takeOutput =>
      simp only [HostCall.apply, takeOutput_withSource]
      cases m.takeOutput <;> rfl
  | giveChar c | feed text | drainOutput => rfl

lemma answer_withSource (source : String) (call : HostCall) (m : Machine κ) :
    call.answer (m.withSource source) = call.answer m := by
  cases call with
  | step =>
      simp only [HostCall.answer, step_withSource]
      cases m.step <;> rfl
  | giveText text =>
      simp only [HostCall.answer, giveText_withSource]
      cases m.giveText text <;> rfl
  | takeOutput =>
      simp only [HostCall.answer, takeOutput_withSource]
      cases m.takeOutput <;> rfl
  | giveChar c | feed text | drainOutput => rfl

lemma after_withSource (source : String) (m : Machine κ) (calls : List HostCall) :
    (m.withSource source).after calls = (m.after calls).withSource source := by
  induction calls generalizing m with
  | nil => rfl
  | cons call calls ih => rw [after_cons, after_cons, apply_withSource, ih]

/-- **Sources that are loaded to the same grid make the same program.** -/
lemma after_load_of_ofSource_eq {source source' : String}
    (h : Grid.ofSource source' = Grid.ofSource source) (values : List Float) (compass : κ)
    (calls : List HostCall) :
    (load source' values compass).after calls =
      ((load source values compass).after calls).withSource source' := by
  have hload : load source' values compass = (load source values compass).withSource source' := by
    simp only [load, withSource, h]
  rw [hload, after_withSource]

/-- **Line endings do not matter.**  Write some lines to a text, with a newline or a carriage return
and a newline between them, chosen for each line, and with a carriage return or nothing at the
end.  The text is loaded to a grid that has a row for each line, is as wide as the longest line is
long, and shows the characters of the lines and blanks behind them.  Another choice of the line
endings gives the same grid.  Whatever a host does with the two programs, it gets the same answers,
and the machines differ in nothing but the text they remember. -/
theorem line_endings_do_not_matter (lines : List Text.Line) (hne : lines ≠ [])
    (returned returned' : Nat → Bool) :
    let source := Text.written lines returned
    let source' := Text.written lines returned'
    (Grid.ofSource source).Holds (lines.map Text.Line.chars) ∧
      Grid.ofSource source' = Grid.ofSource source ∧
      ∀ (values : List Float) (compass : κ) (calls : List HostCall),
        let m := (load source values compass).after calls
        let m' := (load source' values compass).after calls
        m' = m.withSource source' ∧ ∀ call : HostCall, call.answer m' = call.answer m := by
  intro source source'
  have hgrid (returned : Nat → Bool) :
      Grid.ofSource (Text.written lines returned) = Grid.ofLines (lines.map Text.Line.chars) :=
    congrArg Grid.ofLines (Text.lines_written hne returned)
  have hsame : Grid.ofSource source' = Grid.ofSource source :=
    (hgrid returned').trans (hgrid returned).symm
  refine ⟨?_, hsame, fun values compass calls => ?_⟩
  · rw [hgrid]
    exact Grid.holds_ofLines (by simpa using hne)
  · have hafter := after_load_of_ofSource_eq hsame values compass calls
    refine ⟨hafter, fun call => ?_⟩
    rw [hafter, answer_withSource]

/-- A line with a carriage return inside, an empty line and a line that is too short, with mixed
endings and with none but newlines. -/
theorem line_endings_do_not_matter_return_inside :
    (Grid.ofSource "é\r1\r\n\n2\r").Holds [['é', '\r', '1'], [], ['2']] ∧
      Grid.ofSource "é\r1\n\n2" = Grid.ofSource "é\r1\r\n\n2\r" ∧
      (load "é\r1\n\n2" [] (⟨[]⟩ : Script)).after [.feed "a", .step] =
        ((load "é\r1\r\n\n2\r" [] (⟨[]⟩ : Script)).after [.feed "a", .step]).withSource
          "é\r1\n\n2" := by
  let lines : List Text.Line :=
    [⟨['é', '\r', '1'], by decide, by decide⟩, ⟨[], by decide, by decide⟩,
      ⟨['2'], by decide, by decide⟩]
  have hmixed : Text.written lines (fun row => row != 1) = "é\r1\r\n\n2\r" := by decide +kernel
  have hplain : Text.written lines (fun _ => false) = "é\r1\n\n2" := by decide +kernel
  obtain ⟨hholds, hgrid, hruns⟩ := @line_endings_do_not_matter Script _ lines
    (List.cons_ne_nil _ _) (fun row => row != 1) (fun _ => false)
  rw [hmixed] at hholds hgrid hruns
  rw [hplain] at hgrid hruns
  exact ⟨hholds, hgrid, (hruns [] ⟨[]⟩ [.feed "a", .step]).1⟩

end Machine

end Aquarium
