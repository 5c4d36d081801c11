import Aquarium.Proofs.Machine.Literals
import Aquarium.Proofs.Machine.Routes
import Aquarium.Proofs.Number.Order
import Aquarium.Proofs.Session.Endings

/-!
# A program that prints a text

The upper line of the program is a string literal with the text, which is then turned around, so
that its first character is on top of the stack.  A mirror sends the pointer down to the lower
line, and there it circles to the west.  Each turn tests the length of the stack.  As long as there
is a character, the end of the program is jumped over and the character is printed.

The way to the lower line is `run_upper`.  One turn on it is `leads_turn`, and `run_turns` is the
induction on the characters that are left.
-/

namespace Aquarium

open Machine (leads_of_meets leads_skip leads_skipIfZero leads_skipIfZero_of_ne
  leads_printChar)

namespace Greeting

/-- The line with the text. -/
def upper (text : List Char) : List Char := '"' :: text ++ ['"', 'r', '\\']

/-- The line with the loop, which is passed from right to left, behind some blanks. -/
def lower (blanks : Nat) : List Char :=
  List.replicate blanks ' ' ++ ['o', ';', '!', '?', 'l', '<']

/-- The program for a text. -/
def source (text : String) : String :=
  "\"" ++ text ++ "\"r\\\n" ++ String.ofList (List.replicate (text.length - 2) ' ') ++ "o;!?l<"

/-! ## The grid -/

lemma lines_source {text : String} (h : '\n' ∉ text.toList) :
    Text.lines (source text) = [upper text.toList, lower (text.length - 2)] := by
  have hsource : (source text).toList =
      ['\n'].intercalate [upper text.toList, lower (text.length - 2)] := by
    simp [source, upper, lower, List.intercalate]
  have hsplit : Text.splitLines (source text).toList =
      [upper text.toList, lower (text.length - 2)] := by
    rw [hsource]
    refine Text.splitLines_intercalate (by simp) ?_
    simp [upper, lower, h]
  have hupper : (upper text.toList).getLast? ≠ some '\r' := by
    rw [upper, List.getLast?_append]
    simp
  have hlower : (lower (text.length - 2)).getLast? ≠ some '\r' := by
    rw [lower, List.getLast?_append]
    simp
  rw [Text.lines, hsplit, List.map_cons, List.map_singleton, Text.dropReturn_of_ne hupper,
    Text.dropReturn_of_ne hlower]

lemma length_upper (text : List Char) : (upper text).length = text.length + 4 := by
  simp [upper]

lemma length_lower (blanks : Nat) : (lower blanks).length = blanks + 6 := by
  simp [lower]

/-- What stands behind the text. -/
lemma getElem?_upper {text : List Char} {blanks : Nat} (hlength : text.length = blanks + 2)
    (k : Nat) : (upper text)[blanks + 3 + k]? = ['"', 'r', '\\'][k]? := by
  have hfront : ('"' :: text).length = blanks + 3 := by rw [List.length_cons, hlength]
  rw [upper, List.getElem?_append_right (by omega), hfront, Nat.add_sub_cancel_left]

/-- The grid of the program. -/
def grid (text : List Char) (blanks : Nat) : Grid := .ofLines [upper text, lower blanks]

variable {κ : Type} {m : Machine κ} {text : List Char} {blanks : Nat}

section Cells

variable (hlength : text.length = blanks + 2) (hgrid : m.grid = grid text blanks)
  {x : Nat} {c : Char}

include hlength hgrid

lemma width_eq : m.grid.width = blanks + 6 := by
  rw [hgrid]
  refine Grid.widest_of_forall_length (by simp) ?_
  simp [length_upper, length_lower, hlength]

lemma meets_east (hc : (upper text)[x + 1]? = some c) :
    m.grid.Meets (.on x 0 .east) (.on (x + 1) 0 .east) c := by
  have hx := (List.getElem?_eq_some_iff.mp hc).1
  rw [length_upper, hlength, ← width_eq hlength hgrid] at hx
  rw [hgrid] at hx ⊢
  exact Grid.meets_ofLines rfl hc (Pointer.advance_on_east hx Nat.two_pos)

lemma meets_west (hc : (lower blanks)[x]? = some c) :
    m.grid.Meets (.on (x + 1) 1 .west) (.on x 1 .west) c := by
  have hx := (List.getElem?_eq_some_iff.mp hc).1
  rw [length_lower, ← width_eq hlength hgrid] at hx
  rw [hgrid] at hx ⊢
  exact Grid.meets_ofLines rfl hc (Pointer.advance_on_west hx Nat.one_lt_two)

/-- The loop goes around the edge of the grid. -/
lemma meets_around : m.grid.Meets (.on 0 1 .west) (.on (blanks + 5) 1 .west) '<' := by
  have haround := @Pointer.advance_on_first_west 2 (blanks + 5) 1 Nat.one_lt_two
  rw [← width_eq hlength hgrid, hgrid] at haround
  rw [hgrid]
  exact Grid.meets_ofLines rfl (by simp [lower]) haround

/-- The mirror sends the pointer to the start of the loop. -/
lemma meets_below :
    m.grid.Meets (.on (blanks + 5) 0 .south) (.on (blanks + 5) 1 .south) '<' := by
  have hx : blanks + 5 < m.grid.width := (Nat.lt_succ_self _).trans_eq (width_eq hlength hgrid).symm
  rw [hgrid] at hx ⊢
  exact Grid.meets_ofLines rfl (by simp [lower]) (Pointer.advance_on_south hx Nat.one_lt_two)

section Start

variable (hstart : m.pointer = .start)

include hstart

lemma pointerAhead_eq {k : Nat} (hk : k < blanks + 6) : m.pointerAhead k = .on k 0 .east := by
  have hwidth := width_eq hlength hgrid
  have hheight : m.grid.height = 2 := by rw [hgrid]; rfl
  have hfirst : m.advance.pointer = .on 0 0 .east := by
    rw [Machine.advance, hstart]
    exact Pointer.advance_start (by omega) (by omega)
  rw [Machine.pointerAhead, hfirst, Pointer.ahead_on_east (by omega) (by omega), Nat.zero_add]

/-- From the first cell on the cells ahead are those of the upper line. -/
lemma cellAhead?_eq {k : Nat} (hc : (upper text)[k]? = some c) :
    m.cellAhead? k = some (Number.ofChar c) := by
  have hk := (List.getElem?_eq_some_iff.mp hc).1
  rw [length_upper, hlength] at hk
  rw [Machine.cellAhead?, pointerAhead_eq hlength hgrid hstart hk]
  rw [← width_eq hlength hgrid] at hk
  rw [hgrid] at hk ⊢
  have hcell := @Grid.cell?_ofLines [upper text, lower blanks] 0 k (upper text) rfl hk
  rwa [hc, Option.getD_some] at hcell

end Start

end Cells

/-! ## The loop -/

variable [Compass κ]

section Loop

variable (hlength : text.length = blanks + 2) (hgrid : m.grid = grid text blanks)
  (hphase : m.phase = .running) (vs : List Float) (input : List Char) (output : List Emission)

include hlength hgrid hphase

/-- The blanks are passed in as many steps. -/
lemma leads_blanks {x : Nat} (hx : x ≤ blanks) :
    m.Leads x ⟨.on x 1 .west, vs, input, output⟩ ⟨.on 0 1 .west, vs, input, output⟩ := by
  induction x with
  | zero => exact .refl m _
  | succ x ih =>
      have hblank : (lower blanks)[x]? = some ' ' := by
        rw [lower, List.getElem?_append_left (by simpa using hx), List.getElem?_replicate_of_lt hx]
      have hfirst : m.Leads 1 ⟨.on (x + 1) 1 .west, vs, input, output⟩
          ⟨.on x 1 .west, vs, input, output⟩ :=
        leads_of_meets hphase (meets_west hlength hgrid hblank) rfl fun _ => rfl
      have hall := hfirst.trans (ih (Nat.le_of_succ_le hx))
      rwa [Nat.add_comm] at hall

/-- One turn prints the character on top of the stack. -/
lemma leads_turn (c : Char) :
    m.Leads (blanks + 5) ⟨.on (blanks + 5) 1 .west, Number.ofChar c :: vs, input, output⟩
      ⟨.on (blanks + 5) 1 .west, vs, input, output ++ [.char c]⟩ := by
  have hmore : Number.isZero (Number.ofNat (Number.ofChar c :: vs).length) = false := by
    rw [← Bool.not_eq_true, Number.isZero_ofNat_iff]
    simp
  have hskip : (Pointer.on (blanks + 2) 1 .west).advance m.grid.width m.grid.height =
      .on (blanks + 1) 1 .west := (meets_west hlength hgrid (c := ';') (by simp [lower])).advance_eq
  have hfront : m.Leads 4 ⟨.on (blanks + 5) 1 .west, Number.ofChar c :: vs, input, output⟩
      ⟨.on blanks 1 .west, vs, input, output ++ [.char c]⟩ :=
    calc
      m.Leads 1 ⟨.on (blanks + 5) 1 .west, Number.ofChar c :: vs, input, output⟩
          ⟨.on (blanks + 4) 1 .west,
            Number.ofNat (Number.ofChar c :: vs).length :: Number.ofChar c :: vs, input, output⟩ :=
        leads_of_meets hphase (meets_west hlength hgrid (c := 'l') (by simp [lower])) rfl
          fun _ => rfl
      m.Leads 1 _ ⟨.on (blanks + 3) 1 .west, Number.ofChar c :: vs, input, output⟩ :=
        leads_skipIfZero_of_ne hphase (meets_west hlength hgrid (by simp [lower])) hmore
      m.Leads 1 _ ⟨.on (blanks + 1) 1 .west, Number.ofChar c :: vs, input, output⟩ :=
        leads_skip hphase (meets_west hlength hgrid (by simp [lower])) hskip
      m.Leads 1 _ ⟨.on blanks 1 .west, vs, input, output ++ [.char c]⟩ :=
        leads_printChar hphase (meets_west hlength hgrid (by simp [lower]))
  have hback : m.Leads 1 ⟨.on 0 1 .west, vs, input, output ++ [.char c]⟩
      ⟨.on (blanks + 5) 1 .west, vs, input, output ++ [.char c]⟩ :=
    leads_of_meets hphase (meets_around hlength hgrid) rfl fun _ => rfl
  have hall := (hfront.trans (leads_blanks hlength hgrid hphase vs input _ le_rfl)).trans hback
  rwa [show 4 + blanks + 1 = blanks + 5 by omega] at hall

omit vs in
/-- The last turn finds the stack empty and ends the program. -/
lemma run_last_turn (steps : Nat) :
    (m.inScene ⟨.on (blanks + 5) 1 .west, [], input, output⟩ steps).run 3 =
      { m.inScene ⟨.on (blanks + 1) 1 .west, [], input, output⟩ (steps + 3) with
        phase := .halted } := by
  have hskip : (Pointer.on (blanks + 3) 1 .west).advance m.grid.width m.grid.height =
      .on (blanks + 2) 1 .west := (meets_west hlength hgrid (c := '!') (by simp [lower])).advance_eq
  have hroute : m.Leads 2 ⟨.on (blanks + 5) 1 .west, [], input, output⟩
      ⟨.on (blanks + 2) 1 .west, [], input, output⟩ :=
    calc
      m.Leads 1 ⟨.on (blanks + 5) 1 .west, [], input, output⟩
          ⟨.on (blanks + 4) 1 .west, [Number.ofNat 0], input, output⟩ :=
        leads_of_meets hphase (meets_west hlength hgrid (c := 'l') (by simp [lower])) rfl
          fun _ => rfl
      m.Leads 1 _ ⟨.on (blanks + 2) 1 .west, [], input, output⟩ :=
        leads_skipIfZero hphase (meets_west hlength hgrid (by simp [lower]))
          (Number.isZero_ofNat_iff.mpr rfl) hskip
  exact (hroute.run_add 1 steps).trans
    (Machine.run_halt hphase (meets_west hlength hgrid (x := blanks + 1) (by simp [lower])) _)

/-- All turns together. -/
lemma run_turns (left : List Char) (steps : Nat) :
    (m.inScene ⟨.on (blanks + 5) 1 .west, left.map Number.ofChar, input, output⟩ steps).run
        (left.length * (blanks + 5) + 3) =
      { m.inScene ⟨.on (blanks + 1) 1 .west, [], input, output ++ left.map .char⟩
          (steps + (left.length * (blanks + 5) + 3)) with
        phase := .halted } := by
  induction left generalizing output steps with
  | nil => simpa using run_last_turn hlength hgrid hphase input output steps
  | cons c left ih =>
      have hcount : (c :: left).length * (blanks + 5) + 3 =
          blanks + 5 + (left.length * (blanks + 5) + 3) := by
        rw [List.length_cons, Nat.succ_mul]
        omega
      rw [hcount, List.map_cons,
        (leads_turn hlength hgrid hphase (left.map Number.ofChar) input output c).run_add, ih,
        Nat.add_assoc]
      simp

end Loop

/-! ## The way to the loop -/

section Way

variable (hlength : text.length = blanks + 2) (hgrid : m.grid = grid text blanks)
  (hphase : m.phase = .running) (hstart : m.pointer = .start)

include hlength hgrid hphase hstart

/-- The text is read as a string literal. -/
lemma run_literal (hquote : '"' ∉ text) :
    m.run (text.length + 2) = m.beyond (text.map Number.ofChar) := by
  have hshape : m.grid.Filled := hgrid ▸ Grid.filled_ofLines _
  have hw : 0 < m.grid.width := by rw [width_eq hlength hgrid]; omega
  have hh : 0 < m.grid.height := by rw [hgrid]; exact Nat.two_pos
  have hexecutes : m.Executes '"' := by
    refine ⟨hphase, Number.ofChar '"', ?_, Number.char?_ofChar _⟩
    have hfirst := @cellAhead?_eq _ m _ _ hlength hgrid '"' hstart 0 rfl
    rwa [Machine.cellAhead?, Machine.pointerAhead_zero hw hh] at hfirst
  have hopen := Machine.step_of_executes_quote hw hh (Or.inr rfl) hexecutes
  have hcells : (text.map Number.ofChar).map some =
      (List.range' 1 (text.map Number.ofChar).length).map m.cellAhead? := by
    refine List.ext_getElem (by simp) fun i hi _ => ?_
    have hi' : i < text.length := by simpa using hi
    have hupper : (upper text)[1 + i]? = some text[i] := by
      rw [Nat.add_comm, upper, List.cons_append, List.getElem?_cons_succ,
        List.getElem?_append_left hi', List.getElem?_eq_getElem hi']
    simp [cellAhead?_eq hlength hgrid hstart hupper]
  have hother : ∀ cell ∈ text.map Number.ofChar, Number.char? cell ≠ some '"' := by
    intro cell hcell
    obtain ⟨c, hc, rfl⟩ := List.mem_map.mp hcell
    rw [Number.char?_ofChar]
    rintro ⟨⟩
    exact hquote hc
  have hclose : (m.cellAhead? ((text.map Number.ofChar).length + 1)).bind Number.char? =
      some '"' := by
    rw [List.length_map, hlength, cellAhead?_eq hlength hgrid hstart (getElem?_upper hlength 0),
      Option.bind_some, Number.char?_ofChar]
  have hrun := Machine.run_eq_beyond_of_cells hshape hw hh hopen hcells hother hclose
  rwa [List.length_map] at hrun

/-- The literal is turned around and the pointer sent to the loop. -/
lemma run_upper (hquote : '"' ∉ text) (hvalues : m.stack.values = []) :
    m.run (text.length + 5) =
      m.inScene ⟨.on (blanks + 5) 1 .west, text.map Number.ofChar, m.input.items, m.output.items⟩
        (m.steps + (text.length + 5)) := by
  have hread : m.beyond (text.map Number.ofChar) =
      m.inScene ⟨.on (blanks + 3) 0 .east, (text.map Number.ofChar).reverse, m.input.items,
        m.output.items⟩ (m.steps + (text.length + 2)) := by
    rw [Machine.beyond, List.length_map, pointerAhead_eq hlength hgrid hstart (by omega), hvalues,
      List.append_nil, hlength, ← hphase]
    rfl
  have hroute : m.Leads 3
      ⟨.on (blanks + 3) 0 .east, (text.map Number.ofChar).reverse, m.input.items, m.output.items⟩
      ⟨.on (blanks + 5) 1 .west, text.map Number.ofChar, m.input.items, m.output.items⟩ :=
    calc
      m.Leads 1
          ⟨.on (blanks + 3) 0 .east, (text.map Number.ofChar).reverse, m.input.items,
            m.output.items⟩
          ⟨.on (blanks + 4) 0 .east, (text.map Number.ofChar).reverse.reverse, m.input.items,
            m.output.items⟩ :=
        leads_of_meets hphase
          (meets_east hlength hgrid (getElem?_upper hlength 1)) rfl fun _ => rfl
      m.Leads 1 _
          ⟨.on (blanks + 5) 0 .south, text.map Number.ofChar, m.input.items, m.output.items⟩ := by
        rw [List.reverse_reverse]
        exact leads_of_meets hphase
          (meets_east hlength hgrid (getElem?_upper hlength 2)) rfl fun _ => rfl
      m.Leads 1 _
          ⟨.on (blanks + 5) 1 .west, text.map Number.ofChar, m.input.items, m.output.items⟩ :=
        leads_of_meets hphase (meets_below hlength hgrid) rfl fun _ => rfl
  rw [show text.length + 5 = text.length + 2 + 3 from rfl, Machine.run_add,
    run_literal hlength hgrid hphase hstart hquote, hread, hroute, Nat.add_assoc]

/-- The whole program: the way to the loop, a turn for each character, and the last turn. -/
lemma run_to_end (hquote : '"' ∉ text) (hvalues : m.stack.values = []) :
    m.run (text.length ^ 2 + 4 * text.length + 8) =
      { m.inScene ⟨.on (blanks + 1) 1 .west, [], m.input.items, m.output.items ++ text.map .char⟩
          (m.steps + (text.length ^ 2 + 4 * text.length + 8)) with
        phase := .halted } := by
  have hcount : text.length ^ 2 + 4 * text.length + 8 =
      text.length + 5 + (text.length * (blanks + 5) + 3) := by
    rw [hlength]
    ring
  rw [hcount, Machine.run_add, run_upper hlength hgrid hphase hstart hquote hvalues,
    run_turns hlength hgrid hphase, Nat.add_assoc]

end Way

end Greeting

namespace Session

variable {κ : Type} [Compass κ]

/-- **The greeting program prints its text.**  Take any text of `n ≥ 2` characters without a
newline and without a double quote, any compass and any input, and no budget or one of at least
`n ^ 2 + 4 * n + 8` steps.  The session of the program for the text completes after exactly as many
steps, and has printed the characters of the text in order.  (A session without budget answers
nothing after `2 ^ 64` steps, which no counter of 64 bits can count.) -/
theorem greeting_prints_its_text (text : String) (hlength : 2 ≤ text.length)
    (hnewline : '\n' ∉ text.toList) (hquote : '"' ∉ text.toList) (settings : Settings)
    (compass : κ) (input : String)
    (hbudget : ∀ limit, settings.maxSteps = some limit →
      text.length ^ 2 + 4 * text.length + 8 ≤ limit) :
    ∃ s : Session κ,
      (start (Greeting.source text) [] settings compass input).Returns none
        (.completed, s, none) ∧
      (settings.maxSteps.isSome ∨ text.length ^ 2 + 4 * text.length + 8 < 2 ^ 64 →
        (start (Greeting.source text) [] settings compass input).run none =
          some (.completed, s, none)) ∧
      s.machine.steps = text.length ^ 2 + 4 * text.length + 8 ∧
      s.output.toList = text.toList.map .char := by
  have hlength' : text.toList.length = text.length - 2 + 2 := by
    rw [String.length_toList]
    omega
  have hgrid : Grid.ofSource (Greeting.source text) =
      Greeting.grid text.toList (text.length - 2) :=
    congrArg Grid.ofLines (Greeting.lines_source hnewline)
  have hend := Greeting.run_to_end
    (m := (start (Greeting.source text) [] settings compass input).machine) hlength' hgrid rfl rfl
    hquote rfl
  rw [String.length_toList] at hend
  have hbudget' : ∀ limit, settings.maxSteps = some limit →
      0 + (text.length ^ 2 + 4 * text.length + 8) ≤ limit := by simpa using hbudget
  obtain ⟨s, hmachine, houtput, hreturns, hrun⟩ :=
    returns_of_run (s := start (Greeting.source text) [] settings compass input) hend rfl rfl
      hbudget' rfl
  refine ⟨s, hreturns, hrun, ?_, houtput⟩
  rw [hmachine]
  exact Nat.zero_add _

/-- The shortest text that fits, with a carriage return and no blank in the loop.  The budget is
just large enough. -/
theorem greeting_prints_its_text_of_two :
    Greeting.source "é\r" = "\"é\r\"r\\\no;!?l<" ∧
      ∃ s : Session Script,
        (start "\"é\r\"r\\\no;!?l<" [] { maxSteps := some 20 } (⟨[]⟩ : Script) "").run none =
            some (.completed, s, none) ∧
          s.machine.steps = 20 ∧ s.output.toList = [.char 'é', .char '\r'] := by
  obtain ⟨s, -, hrun, hsteps, houtput⟩ :=
    greeting_prints_its_text "é\r" (by decide) (by decide) (by decide) { maxSteps := some 20 }
      (⟨[]⟩ : Script) "" (by rintro _ ⟨⟩; decide)
  exact ⟨rfl, s, hrun (Or.inl rfl), hsteps, houtput⟩

end Session

end Aquarium
