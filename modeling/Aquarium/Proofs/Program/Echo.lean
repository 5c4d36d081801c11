import Aquarium.Proofs.Machine.Routes
import Aquarium.Proofs.Number.Order
import Aquarium.Proofs.Session.Endings

/-!
# A program that repeats its input

The program `i:0(?;o` takes a character of its input and compares a copy of it with zero.  No code
point is negative, so the conditional trampoline jumps over the end of the program, and the
character is printed; then the pointer comes around to the start.  At the end of the input there is
minus one to be compared, and the program ends.

One turn around the grid is `leads_turn`, the last one is `run_last_turn`, and the induction on the
input is `run_to_end`.
-/

namespace Aquarium

namespace Echo

/-- The text of the program. -/
def source : String := "i:0(?;o"

/-- The pointer on a column of the only row. -/
def column (x : Int) : Pointer := ⟨x, 0, .east⟩

/-- The columns of the program and their characters, as they come one after the other.  The pointer
comes to the first one from outside or from the last one. -/
def way : List (Int × Int × Char) :=
  [(-1, 0, 'i'), (6, 0, 'i'), (0, 1, ':'), (1, 2, '0'), (2, 3, '('), (3, 4, '?'), (4, 5, ';'),
    (5, 6, 'o')]

lemma meets_of_mem_way :
    ∀ e ∈ way, (Grid.ofSource source).Meets (column e.1) (column e.2.1) e.2.2 := by
  decide +kernel

/-- No code point is smaller than zero. -/
lemma less_ofChar_zero (c : Char) : Number.less (Number.ofChar c) (Number.ofNat 0) = false := by
  have hzero : Number.value? (Number.ofNat 0) = some 0 :=
    Number.isZero_iff.mp (Number.isZero_ofNat_iff.mpr rfl)
  rw [Number.less_eq_decide (Number.isChar_ofChar c) hzero, decide_eq_false_iff_not, not_lt]
  exact Nat.cast_nonneg _

variable {κ : Type}

lemma meets {m : Machine κ} (hgrid : m.grid = Grid.ofSource source) (x y : Int) (c : Char)
    (h : (x, y, c) ∈ way) : m.grid.Meets (column x) (column y) c := by
  rw [hgrid]
  exact meets_of_mem_way _ h

section Turns

variable [Compass κ] {m : Machine κ} (hgrid : m.grid = Grid.ofSource source)
  (hphase : m.phase = .running) {q : Pointer} (hq : m.grid.Meets q (column 0) 'i')

include hgrid hphase hq

/-- What is read is compared with zero. -/
lemma leads_test {v : Float} {input rest : List Char} (output : List Emission)
    (hread : ∀ steps, Machine.execute .input (m.inScene ⟨column 0, [], input, output⟩ steps) =
      .ok () (m.inScene ⟨column 0, [v], rest, output⟩ steps)) :
    m.Leads 4 ⟨q, [], input, output⟩
      ⟨column 3, [Operator.truth (Number.less v (Number.ofNat 0)), v], rest, output⟩ :=
  calc
    m.Leads 1 ⟨q, [], input, output⟩ ⟨column 0, [v], rest, output⟩ :=
      Machine.leads_of_meets hphase hq rfl hread
    m.Leads 1 _ ⟨column 1, [v, v], rest, output⟩ :=
      Machine.leads_of_meets hphase (meets hgrid 0 1 ':' (by decide)) rfl fun _ => rfl
    m.Leads 1 _ ⟨column 2, [Number.ofNat 0, v, v], rest, output⟩ :=
      Machine.leads_of_meets hphase (meets hgrid 1 2 '0' (by decide)) rfl fun _ => rfl
    m.Leads 1 _ ⟨column 3, [Operator.truth (Number.less v (Number.ofNat 0)), v], rest, output⟩ :=
      Machine.leads_of_meets hphase (meets hgrid 2 3 '(' (by decide)) rfl fun _ => rfl

/-- One turn takes a character from the input to the output. -/
lemma leads_turn (c : Char) (rest : List Char) (output : List Emission) :
    m.Leads 6 ⟨q, [], c :: rest, output⟩ ⟨column 6, [], rest, output ++ [.char c]⟩ := by
  have htest : Number.isZero
      (Operator.truth (Number.less (Number.ofChar c) (Number.ofNat 0))) = true := by
    rw [less_ofChar_zero, Operator.isZero_truth]
    rfl
  have hskip : (column 4).advance m.grid.width m.grid.height = column 5 :=
    (meets hgrid 4 5 ';' (by decide)).advance_eq
  calc
    m.Leads 4 ⟨q, [], c :: rest, output⟩ ⟨column 3, [_, Number.ofChar c], rest, output⟩ :=
      leads_test hgrid hphase hq output fun _ => rfl
    m.Leads 1 _ ⟨column 5, [Number.ofChar c], rest, output⟩ :=
      Machine.leads_skipIfZero hphase (meets hgrid 3 4 '?' (by decide)) htest hskip
    m.Leads 1 _ ⟨column 6, [], rest, output ++ [.char c]⟩ :=
      Machine.leads_printChar hphase (meets hgrid 5 6 'o' (by decide))

/-- The last turn finds no input. -/
lemma run_last_turn (output : List Emission) (steps : Nat) :
    (m.inScene ⟨q, [], [], output⟩ steps).run 6 =
      { m.inScene ⟨column 5, [Number.ofInt (-1)], [], output⟩ (steps + 6) with
        phase := .halted } := by
  have htest : Number.isZero
      (Operator.truth (Number.less (Number.ofInt (-1)) (Number.ofNat 0))) = false := by
    decide +kernel
  have hroute : m.Leads 5 ⟨q, [], [], output⟩ ⟨column 4, [Number.ofInt (-1)], [], output⟩ :=
    (leads_test hgrid hphase hq output fun _ => rfl).trans
      (Machine.leads_skipIfZero_of_ne hphase (meets hgrid 3 4 '?' (by decide)) htest)
  exact (hroute.run_add 1 steps).trans
    (Machine.run_halt hphase (meets hgrid 4 5 ';' (by decide)) _)

omit hq in
/-- All turns together. -/
lemma run_to_end (input : List Char) (output : List Emission) (steps : Nat)
    (hq : m.grid.Meets q (column 0) 'i') :
    (m.inScene ⟨q, [], input, output⟩ steps).run (6 * input.length + 6) =
      { m.inScene ⟨column 5, [Number.ofInt (-1)], [], output ++ input.map .char⟩
          (steps + (6 * input.length + 6)) with
        phase := .halted } := by
  induction input generalizing q output steps with
  | nil => simpa using run_last_turn hgrid hphase hq output steps
  | cons c rest ih =>
      have hcount : 6 * (c :: rest).length + 6 = 6 + (6 * rest.length + 6) := by
        rw [List.length_cons]
        omega
      rw [hcount, (leads_turn hgrid hphase hq c rest output).run_add,
        ih _ _ (meets hgrid 6 0 'i' (by decide)), Nat.add_assoc]
      simp

end Turns

end Echo

namespace Session

variable {κ : Type} [Compass κ]

/-- **The echo program repeats its input.**  Given any text, of `n` characters, and any compass, and
no budget or one of at least `6 * n + 6` steps, the session completes after exactly as many steps.
It has printed the characters of the text in order, has read all of it, and no frame is set aside.
(A session without budget answers nothing after `2 ^ 64` steps, which no counter of 64 bits can
count.) -/
theorem echo_repeats_its_input (text : String) (settings : Settings) (compass : κ)
    (hbudget : ∀ limit, settings.maxSteps = some limit → 6 * text.length + 6 ≤ limit) :
    ∃ s : Session κ,
      (start "i:0(?;o" [] settings compass text).Returns none (.completed, s, none) ∧
      (settings.maxSteps.isSome ∨ 6 * text.length + 6 < 2 ^ 64 →
        (start "i:0(?;o" [] settings compass text).run none = some (.completed, s, none)) ∧
      s.machine.steps = 6 * text.length + 6 ∧
      s.output.toList = text.toList.map .char ∧
      s.machine.stack.archive = [] ∧
      s.machine.input.items = [] := by
  have hend := Echo.run_to_end (m := (start Echo.source [] settings compass text).machine) rfl rfl
    text.toList [] 0 (Echo.meets rfl (-1) 0 'i' (by decide))
  rw [String.length_toList, Nat.zero_add, List.nil_append] at hend
  have hbudget' : ∀ limit, settings.maxSteps = some limit →
      0 + (6 * text.length + 6) ≤ limit := by simpa using hbudget
  obtain ⟨s, hmachine, houtput, hreturns, hrun⟩ :=
    returns_of_run (s := start Echo.source [] settings compass text) hend (Nat.zero_add _).symm rfl
      hbudget' rfl
  refine ⟨s, hreturns, hrun, ?_, houtput, ?_, ?_⟩
  all_goals
    rw [hmachine]
    rfl

/-- The null character, a quote and a newline go through like all others, within a budget that is
just large enough. -/
theorem echo_repeats_its_input_within_budget :
    ∃ s : Session Script,
      (start "i:0(?;o" [] { maxSteps := some 24 } (⟨[]⟩ : Script) "\x00\"\n").run none =
          some (.completed, s, none) ∧
        s.machine.steps = 24 ∧
        s.output.toList = [.char '\x00', .char '"', .char '\n'] := by
  obtain ⟨s, -, hrun, hsteps, houtput, -⟩ :=
    echo_repeats_its_input "\x00\"\n" { maxSteps := some 24 } (⟨[]⟩ : Script)
      (by rintro _ ⟨⟩; decide)
  exact ⟨s, hrun (Or.inl rfl), hsteps, houtput⟩

end Session

end Aquarium
