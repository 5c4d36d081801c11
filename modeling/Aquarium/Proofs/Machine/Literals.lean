import Aquarium.Proofs.Machine.Bounds
import Aquarium.Proofs.Machine.Queues

/-!
# String literals

A quote makes the machine take the cells it meets as values, until it meets the same quote again.
It walks along one line of the torus meanwhile, and a line is closed: at the latest it comes back
to the quote it started from.  So a string literal always ends, it cannot fail, and the values on
the stack are the cells of the line between the two quotes, in the order of travel.

The invariant of the walk is `within`: the machine with the cells read so far on its stack and
with its pointer on the last of them.  One step reads one more cell or closes the literal
(`step_within`), and `exists_run_eq_within` puts the steps together.
-/

namespace Aquarium

namespace Machine

variable {κ : Type}

/-- The pointer on the `k`-th cell after the one that the next step executes, if it keeps its
heading. -/
def pointerAhead (m : Machine κ) (k : Nat) : Pointer :=
  m.advance.pointer.ahead m.grid.width m.grid.height k

/-- The `k`-th cell after the one that the next step executes, in the direction of travel. -/
def cellAhead? (m : Machine κ) (k : Nat) : Option Float :=
  m.grid.cell? (m.pointerAhead k).x (m.pointerAhead k).y

/-- The distances at which the quote that the next step executes comes again, one turn of the torus
at most. -/
def closings (m : Machine κ) (quote : Char) : Set Nat :=
  {k | 1 ≤ k ∧ k ≤ m.pointer.heading.lineLength m.grid.width m.grid.height ∧
    (m.cellAhead? k).bind Number.char? = some quote}

/-- The machine after it has read the given cells of a string literal. -/
def within (m : Machine κ) (quote : Char) (cells : List Float) : Machine κ :=
  { m with
    pointer := m.pointerAhead cells.length
    stack := m.stack.withValues (cells.reverse ++ m.stack.values)
    phase := .reading quote
    steps := m.steps + (cells.length + 1) }

/-- The machine after a string literal with the given cells. -/
def beyond (m : Machine κ) (cells : List Float) : Machine κ :=
  { m with
    pointer := m.pointerAhead (cells.length + 1)
    stack := m.stack.withValues (cells.reverse ++ m.stack.values)
    phase := .running
    steps := m.steps + (cells.length + 2) }

/-! ## The line of cells -/

section Line

variable {m : Machine κ}

/-- A machine that executes a cell is on a grid that has one. -/
lemma Executes.sizes_pos {c : Char} (h : m.Executes c) : 0 < m.grid.width ∧ 0 < m.grid.height := by
  obtain ⟨-, cell, hcell, -⟩ := h
  exact sizes_pos_of_cell?_advance hcell

/-- Every cell of the line is there. -/
lemma exists_cellAhead? (hf : m.grid.Filled) (hw : 0 < m.grid.width) (hh : 0 < m.grid.height)
    (k : Nat) : ∃ cell, m.cellAhead? k = some cell := by
  rw [← Option.isSome_iff_exists]
  exact (Grid.cell?_isSome_iff hf _ _).mpr (Pointer.ahead_onTorus hw hh _ k)

lemma pointerAhead_zero (hw : 0 < m.grid.width) (hh : 0 < m.grid.height) :
    m.pointerAhead 0 = m.advance.pointer :=
  Pointer.ahead_zero (Pointer.advance_onTorus hw hh m.pointer)

/-- As many cells ahead as the line has, the pointer is back. -/
lemma cellAhead?_lineLength (hw : 0 < m.grid.width) (hh : 0 < m.grid.height) :
    m.cellAhead? (m.pointer.heading.lineLength m.grid.width m.grid.height) = m.advance.cell? := by
  have hback : m.pointerAhead (m.pointer.heading.lineLength m.grid.width m.grid.height) =
      m.advance.pointer :=
    Pointer.ahead_lineLength (Pointer.advance_onTorus hw hh m.pointer)
  rw [cellAhead?, hback]
  rfl

/-- A literal closes: on its own opening quote if there is no other. -/
lemma exists_isLeast_closings (hw : 0 < m.grid.width) (hh : 0 < m.grid.height) {quote : Char}
    (h : m.Executes quote) : ∃ k, IsLeast (m.closings quote) k := by
  obtain ⟨-, cell, hcell, hchar⟩ := h
  have hpos : 1 ≤ m.pointer.heading.lineLength m.grid.width m.grid.height := by
    cases m.pointer.heading with
    | east | west => exact hw
    | north | south => exact hh
  have hturn : m.pointer.heading.lineLength m.grid.width m.grid.height ∈ m.closings quote := by
    refine ⟨hpos, le_rfl, ?_⟩
    rw [cellAhead?_lineLength hw hh, hcell, Option.bind_some, hchar]
  exact ⟨_, Nat.sInf_mem ⟨_, hturn⟩, fun _ hj => Nat.sInf_le hj⟩

/-- The cells before the closing quote are other cells. -/
lemma not_quote_of_lt {quote : Char} {k j : Nat} (hk : IsLeast (m.closings quote) k) (hj : 1 ≤ j)
    (hjk : j < k) : (m.cellAhead? j).bind Number.char? ≠ some quote := by
  intro hchar
  have hle := hk.2 ⟨hj, hjk.le.trans hk.1.2.1, hchar⟩
  omega

lemma arrived_within (hw : 0 < m.grid.width) (hh : 0 < m.grid.height) (quote : Char)
    (cells : List Float) :
    (m.within quote cells).arrived =
      { m.within quote cells with
        pointer := m.pointerAhead (cells.length + 1)
        steps := m.steps + (cells.length + 2) } := by
  have hpointer : (m.within quote cells).arrived.pointer = m.pointerAhead (cells.length + 1) :=
    Pointer.advance_ahead hw hh m.advance.pointer cells.length
  rw [← hpointer]
  rfl

end Line

variable [Compass κ]

section Steps

variable {m : Machine κ} {quote : Char}

/-! ## Steps -/

/-- The step that opens a literal. -/
lemma step_of_executes_quote (hw : 0 < m.grid.width) (hh : 0 < m.grid.height)
    (hquote : quote = '\'' ∨ quote = '"') (h : m.Executes quote) :
    m.step = .ok (m.within quote []) := by
  have hi : Instruction.ofChar? quote = some (.string quote) := by
    rcases hquote with rfl | rfl <;> rfl
  rw [step_of_executes h hi rfl]
  simp only [within, List.length_nil, pointerAhead_zero hw hh, List.reverse_nil, List.nil_append]
  rfl

/-- A step in a literal closes it on the quote and reads every other cell, whatever it holds. -/
lemma step_within (hw : 0 < m.grid.width) (hh : 0 < m.grid.height) (quote : Char)
    {cells : List Float} {cell : Float} (hcell : m.cellAhead? (cells.length + 1) = some cell) :
    (m.within quote cells).step =
      .ok (if Number.char? cell = some quote then m.beyond cells
        else m.within quote (cells ++ [cell])) := by
  have harrived := arrived_within hw hh quote cells
  have hfetch : (m.within quote cells).arrived.cell? = some cell := by
    rw [harrived]
    exact hcell
  rw [step_eq rfl]
  simp only [hfetch]
  rw [harrived]
  split_ifs with hchar
  · simp only [visit, within, if_pos hchar, beyond]
  · simp only [visit, within, if_neg hchar, onStack, Stack.push]
    simp [Stack.withValues, Stack.values]

/-! ## Runs -/

/-- As long as the quote has not come, the machine is in the literal and has read every cell. -/
lemma exists_run_eq_within (hf : m.grid.Filled) (hw : 0 < m.grid.width) (hh : 0 < m.grid.height)
    (hopen : m.step = .ok (m.within quote [])) (n : Nat)
    (hno : ∀ j, 1 ≤ j → j ≤ n → (m.cellAhead? j).bind Number.char? ≠ some quote) :
    ∃ cells : List Float, cells.map some = (List.range' 1 n).map m.cellAhead? ∧
      m.run (n + 1) = m.within quote cells := by
  induction n with
  | zero => exact ⟨[], rfl, by simp only [run, hopen]⟩
  | succ n ih =>
      obtain ⟨cells, hcells, hrun⟩ := ih fun j hj hjn => hno j hj (Nat.le_succ_of_le hjn)
      obtain ⟨cell, hcell⟩ := exists_cellAhead? hf hw hh (n + 1)
      have hlength : cells.length = n := by simpa using congrArg List.length hcells
      have hother : Number.char? cell ≠ some quote := by
        have hlast := hno (n + 1) (Nat.le_add_left 1 n) le_rfl
        rwa [hcell, Option.bind_some] at hlast
      have hstep := step_within hw hh quote (hlength.symm ▸ hcell)
      rw [if_neg hother] at hstep
      refine ⟨cells ++ [cell], ?_, ?_⟩
      · rw [List.range'_1_concat, List.map_append, List.map_append, hcells, List.map_singleton,
          List.map_singleton, Nat.add_comm, hcell]
      · rw [run_succ, hrun, HostCall.apply_step_of_ok hstep]

/-- The step on the closing quote. -/
lemma run_eq_beyond (hw : 0 < m.grid.width) (hh : 0 < m.grid.height) {cells : List Float}
    (hrun : m.run (cells.length + 1) = m.within quote cells)
    (hclose : (m.cellAhead? (cells.length + 1)).bind Number.char? = some quote) :
    m.run (cells.length + 2) = m.beyond cells := by
  obtain ⟨cell, hcell, hchar⟩ := Option.bind_eq_some_iff.mp hclose
  have hstep := step_within hw hh quote hcell
  rw [if_pos hchar] at hstep
  rw [run_succ, hrun, HostCall.apply_step_of_ok hstep]

/-- A literal whose cells are known is read in as many steps as it has cells and two quotes. -/
lemma run_eq_beyond_of_cells (hf : m.grid.Filled) (hw : 0 < m.grid.width)
    (hh : 0 < m.grid.height) (hopen : m.step = .ok (m.within quote [])) {cells : List Float}
    (hcells : cells.map some = (List.range' 1 cells.length).map m.cellAhead?)
    (hother : ∀ cell ∈ cells, Number.char? cell ≠ some quote)
    (hclose : (m.cellAhead? (cells.length + 1)).bind Number.char? = some quote) :
    m.run (cells.length + 2) = m.beyond cells := by
  have hno : ∀ j, 1 ≤ j → j ≤ cells.length →
      (m.cellAhead? j).bind Number.char? ≠ some quote := by
    intro j hj hjk
    have hmem : m.cellAhead? j ∈ cells.map some := by
      rw [hcells]
      exact List.mem_map_of_mem (List.mem_range'_1.mpr (by omega))
    obtain ⟨cell, hcell, hahead⟩ := List.mem_map.mp hmem
    rw [← hahead, Option.bind_some]
    exact hother cell hcell
  obtain ⟨read, hread, hrun⟩ := exists_run_eq_within hf hw hh hopen cells.length hno
  obtain rfl : read = cells :=
    List.map_injective_iff.mpr (Option.some_injective _) (hread.trans hcells.symm)
  exact run_eq_beyond hw hh hrun hclose

end Steps

/-- **The law of string literals.**  Let the next step of a program execute a quote, and let `k` be
the least number such that the `k`-th cell after it, in the direction of travel on the torus, is
the same quote again.  There is one, at the latest when the line is closed.  After that step and
`k` more the machine is running again, with the pointer on the closing quote and the raw values of
the `k - 1` cells between the quotes on top of the stack in the order of travel (a stack lists the
top first), and nothing else has changed; in between it is reading up to the quote. -/
theorem string_literal_is_read (source : String) (values : List Float) (compass : κ)
    (calls : List HostCall) {quote : Char} (hquote : quote = '\'' ∨ quote = '"')
    (hexecutes : ((load source values compass).after calls).Executes quote) :
    let m := (load source values compass).after calls
    ∃ (k : Nat) (cells : List Float),
      IsLeast (m.closings quote) k ∧
      cells.map some = (List.range' 1 (k - 1)).map m.cellAhead? ∧
      (∀ j, 1 ≤ j → j ≤ k → (m.run j).phase = .reading quote) ∧
      m.run (k + 1) =
        { m with
          pointer := m.pointerAhead k
          stack := m.stack.withValues (cells.reverse ++ m.stack.values)
          phase := .running
          steps := m.steps + (k + 1) } := by
  intro m
  have hf : m.grid.Filled := ((shaped_load source values compass).after calls).filled
  obtain ⟨hw, hh⟩ : 0 < m.grid.width ∧ 0 < m.grid.height := hexecutes.sizes_pos
  have hopen := step_of_executes_quote hw hh hquote hexecutes
  obtain ⟨k, hk⟩ := exists_isLeast_closings hw hh hexecutes
  have hinside (n : Nat) (hn : n < k) :=
    exists_run_eq_within hf hw hh hopen n fun j hj hjn => not_quote_of_lt hk hj (by omega)
  obtain ⟨n, rfl⟩ : ∃ n, k = n + 1 := ⟨k - 1, (Nat.sub_add_cancel hk.1.1).symm⟩
  obtain ⟨cells, hcells, hrun⟩ := hinside n (Nat.lt_succ_self n)
  have hlength : cells.length = n := by simpa using congrArg List.length hcells
  refine ⟨n + 1, cells, hk, hcells, ?_, ?_⟩
  · intro j hj hjk
    obtain ⟨i, rfl⟩ : ∃ i, j = i + 1 := ⟨j - 1, (Nat.sub_add_cancel hj).symm⟩
    obtain ⟨read, -, hread⟩ := hinside i hjk
    rw [hread, within]
  · subst hlength
    exact run_eq_beyond hw hh hrun hk.1.2.2

/-- A literal that wraps around the grid and is closed by the quote that opened it.  The other
quote is a value in it like the letter. -/
theorem string_literal_closed_by_its_opening_quote :
    let m := (load "a\"'" [] (⟨[]⟩ : Script)).after [.step]
    m.Executes '"' ∧ (∀ j, 1 ≤ j → j ≤ 3 → (m.run j).phase = .reading '"') ∧
      m.run 4 =
        { m with
          pointer := m.pointerAhead 3
          stack := m.stack.withValues
            ([Number.ofChar 'a', Number.ofChar '\''] ++ m.stack.values)
          phase := .running
          steps := m.steps + 4 } := by
  intro m
  have hexecutes : m.Executes '"' :=
    ⟨by decide +kernel, Number.ofChar '"', by decide +kernel, by decide +kernel⟩
  obtain ⟨k, cells, hleast, hcells, hreading, hrun⟩ :=
    string_literal_is_read "a\"'" [] (⟨[]⟩ : Script) [.step] (Or.inr rfl) hexecutes
  have hthird : (3 : Nat) ∈ m.closings '"' := ⟨by decide, by decide +kernel, by decide +kernel⟩
  have hearlier : ∀ j ∈ [1, 2], (m.cellAhead? j).bind Number.char? ≠ some '"' := by decide +kernel
  obtain rfl : k = 3 := by
    have hle := hleast.2 hthird
    have hpos := hleast.1.1
    have hnot : k ∉ [1, 2] := fun hk => hearlier k hk hleast.1.2.2
    simp only [List.mem_cons, List.not_mem_nil, or_false] at hnot
    omega
  obtain rfl : cells = [Number.ofChar '\'', Number.ofChar 'a'] := by
    have hbetween : (List.range' 1 (3 - 1)).map m.cellAhead? =
        [Number.ofChar '\'', Number.ofChar 'a'].map some := by decide +kernel
    exact List.map_injective_iff.mpr (Option.some_injective _) (hcells.trans hbetween)
  exact ⟨hexecutes, hreading, hrun⟩

end Machine

end Aquarium
