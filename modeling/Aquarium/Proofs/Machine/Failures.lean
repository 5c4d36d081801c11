import Aquarium.Proofs.Instruction.Catalogue
import Aquarium.Proofs.Machine.Bounds
import Aquarium.Proofs.Machine.Outcomes
import Aquarium.Proofs.Number.Value

/-!
# Which steps fail, and what a failed step leaves

`Failure` is the table of failures: one row for each way in which the cell of a step can fail, in
terms of characters and exact numbers, with the fault and the number of values that are gone
then.  `cellFailure?_eq_some_iff` says that executions fail exactly by this table.

Two theorems follow.  A step of a running machine ends with a fault exactly if the table has it
(`step_fails_by_table`), and a failed step has changed nothing but the pointer, which stands on the
cell, and the stack, from which the operands are gone (`failed_step_is_atomic`).
-/

namespace Aquarium

/-! ## The table of failures -/

/-- How many values the instruction of a character needs, given whether the register is filled. -/
def symbolDemand (filled : Bool) (c : Char) : Nat :=
  if c ∈ ['?', ':', '~', '\x7d', '\x7b', '[', 'o', 'n'] then 1
  else if c = '&' then (if filled then 0 else 1)
  else if c ∈ ['+', '-', '*', ',', '%', '=', ')', '(', '$', 'g', '.'] then 2
  else if c ∈ ['@', 'p'] then 3
  else 0

/-- The table of failures: a cell with value `v`, executed on a stack and a grid, fails with a
fault when a number of values is gone. -/
inductive Failure (s : Stack) (g : Grid) (v : Float) : Fault → Nat → Prop
  | notACharacter (hv : ∀ c, ¬ Number.IsChar v c) : Failure s g v (.notACharacter v) 0
  | unknownInstruction {c : Char} (hv : Number.IsChar v c) (hc : c ∉ Instruction.symbols) :
      Failure s g v (.unknownInstruction c) 0
  | underflow {c : Char} (hv : Number.IsChar v c)
      (hs : s.size < symbolDemand s.active.register.isSome c) :
      Failure s g v (.underflow (symbolDemand s.active.register.isSome c) s.size) 0
  | divisionByZero {c : Char} {x y : Float} {rest : List Float} (hv : Number.IsChar v c)
      (hc : c = ',' ∨ c = '%') (hs : s.values = x :: y :: rest) (hx : Number.value? x = some 0) :
      Failure s g v .divisionByZero 2
  | unprintable {t : Float} {rest : List Float} (hv : Number.IsChar v 'o')
      (hs : s.values = t :: rest) (ht : ∀ c, ¬ Number.IsChar t c) :
      Failure s g v (.unprintable t) 1
  | badSubstackSize {t : Float} {rest : List Float} (hv : Number.IsChar v '[')
      (hs : s.values = t :: rest) (ht : ∀ n, ¬ Number.IsIndex t n) :
      Failure s g v (.badSubstackSize t) 1
  | shortSubstack {t : Float} {rest : List Float} {n : Nat} (hv : Number.IsChar v '[')
      (hs : s.values = t :: rest) (ht : Number.IsIndex t n) (hn : s.size - 1 < n) :
      Failure s g v (.underflow n (s.size - 1)) 1
  | jump {x y : Float} {rest : List Float} (hv : Number.IsChar v '.')
      (hs : s.values = y :: x :: rest)
      (hxy : ¬ ∃ column row, Number.IsIndex x column ∧ Number.IsIndex y row ∧
        column < g.width ∧ row < g.height) :
      Failure s g v (.outside x y) 2
  | put {x y w : Float} {rest : List Float} (hv : Number.IsChar v 'p')
      (hs : s.values = y :: x :: w :: rest)
      (hxy : ¬ ∃ column row, Number.IsIndex x column ∧ Number.IsIndex y row) :
      Failure s g v (.outside x y) 3

lemma symbolDemand_of_mem_digits (filled : Bool) {c : Char} (hc : c ∈ Instruction.digits) :
    symbolDemand filled c = 0 := by
  have hall : (Instruction.digits.all fun c => symbolDemand filled c == 0) = true := by
    cases filled <;> decide
  exact beq_iff_eq.mp (List.all_eq_true.mp hall c hc)

lemma symbolDemand_of_mem_catalogue : ∀ filled, ∀ entry ∈ Instruction.catalogue,
    symbolDemand filled entry.1 = entry.2.demand filled := by
  decide

/-- Only instructions need values. -/
lemma mem_symbols_of_symbolDemand {filled : Bool} {c : Char} {n : Nat}
    (h : n < symbolDemand filled c) : c ∈ Instruction.symbols := by
  have hone : ['?', ':', '~', '\x7d', '\x7b', '[', 'o', 'n'] ⊆ Instruction.symbols := by decide
  have htwo : ['+', '-', '*', ',', '%', '=', ')', '(', '$', 'g', '.'] ⊆ Instruction.symbols := by
    decide
  have hthree : ['@', 'p'] ⊆ Instruction.symbols := by decide
  unfold symbolDemand at h
  split_ifs at h with h1 h2 hfilled h3 h4
  · exact hone h1
  · exact absurd h (Nat.not_lt_zero n)
  · rw [h2]
    decide
  · exact htwo h3
  · exact hthree h4
  · exact absurd h (Nat.not_lt_zero n)

namespace Instruction

/-- The demand of an instruction is that of its character. -/
lemma demand_of_ofChar? {c : Char} {i : Instruction} (h : ofChar? c = some i) (filled : Bool) :
    i.demand filled = symbolDemand filled c := by
  obtain ⟨d, hd, rfl⟩ | hmem := ofChar?_eq_some_iff.mp h
  · exact (symbolDemand_of_mem_digits filled (mem_digits_of_digit? hd)).symm
  · exact (symbolDemand_of_mem_catalogue filled (c, i) hmem).symm

end Instruction

lemma Stack.size_of_values {s : Stack} {values : List Float} (h : s.values = values) :
    s.size = values.length := by
  rw [← h]
  rfl

/-- If there are more values than those on top, there is one below them. -/
lemma Stack.exists_below {s : Stack} (top : List Float) {rest : List Float}
    (hs : s.values = top ++ rest) (h : top.length < s.size) :
    ∃ v rest', s.values = top ++ v :: rest' := by
  rw [Stack.size_of_values hs, List.length_append] at h
  cases rest with
  | nil => exact absurd h (Nat.lt_irrefl _)
  | cons v rest => exact ⟨v, rest, hs⟩

section Table

variable {s : Stack} {g : Grid} {v : Float} {f : Fault} {n : Nat}

/-- The failure of a cell with a character that stands for an instruction. -/
lemma cellFailure?_of_isChar {c : Char} {i : Instruction} (hv : Number.IsChar v c)
    (hi : Instruction.ofChar? c = some i) : cellFailure? v s g = i.failure? s g := by
  simp only [cellFailure?, Instruction.ofCell, Number.char?_eq_some.mpr hv, Instruction.ofChar, hi]

/-- With enough values on the stack, only the operands can be refused. -/
lemma cellFailure?_of_values {c : Char} {i : Instruction} (hv : Number.IsChar v c)
    (hi : Instruction.ofChar? c = some i) {values : List Float} (hs : s.values = values)
    (hdemand : i.demand s.active.register.isSome ≤ values.length) :
    cellFailure? v s g = i.refusal? g values := by
  rw [cellFailure?_of_isChar hv hi, Instruction.failure?, Stack.size_of_values hs,
    if_neg (Nat.not_lt.mpr hdemand), hs]

/-- Every row of the table is a failure. -/
lemma Failure.cellFailure? (h : Failure s g v f n) : cellFailure? v s g = some (f, n) := by
  cases h with
  | notACharacter hv =>
      simp only [Aquarium.cellFailure?, Instruction.ofCell, Number.char?_eq_none.mpr hv]
  | unknownInstruction hv hc =>
      simp only [Aquarium.cellFailure?, Instruction.ofCell, Number.char?_eq_some.mpr hv,
        Instruction.ofChar, Instruction.ofChar?_eq_none_iff.mpr hc]
  | @underflow c hv hs =>
      obtain ⟨i, hi⟩ : ∃ i, Instruction.ofChar? c = some i := by
        rw [← Option.ne_none_iff_exists', ne_eq, Instruction.ofChar?_eq_none_iff, not_not]
        exact mem_symbols_of_symbolDemand hs
      rw [cellFailure?_of_isChar hv hi, Instruction.failure?, Instruction.demand_of_ofChar? hi,
        if_pos hs]
  | divisionByZero hv hc hs hx =>
      have hzero := Number.isZero_iff.mpr hx
      rcases hc with rfl | rfl
      · rw [cellFailure?_of_values hv (i := .arithmetic .div) rfl hs (Nat.le_add_left 2 _)]
        exact if_pos hzero
      · rw [cellFailure?_of_values hv (i := .arithmetic .mod) rfl hs (Nat.le_add_left 2 _)]
        exact if_pos hzero
  | unprintable hv hs ht =>
      rw [cellFailure?_of_values hv (i := .printChar) rfl hs (Nat.le_add_left 1 _)]
      simp only [Instruction.refusal?, Number.char?_eq_none.mpr ht]
  | badSubstackSize hv hs ht =>
      rw [cellFailure?_of_values hv (i := .stack .openFrame) rfl hs (Nat.le_add_left 1 _)]
      simp only [Instruction.refusal?, Number.index?_eq_none.mpr ht]
  | shortSubstack hv hs ht hn =>
      rw [cellFailure?_of_values hv (i := .stack .openFrame) rfl hs (Nat.le_add_left 1 _)]
      rw [Stack.size_of_values hs, List.length_cons, Nat.add_sub_cancel] at hn ⊢
      simp only [Instruction.refusal?, Number.index?_eq_some.mpr ht, if_pos hn]
  | @jump x y rest hv hs hxy =>
      rw [cellFailure?_of_values hv (i := .jump) rfl hs (Nat.le_add_left 2 _)]
      simp only [Instruction.refusal?]
      split
      · rename_i column row hx hy
        refine if_neg fun hin => hxy ⟨column, row, ?_⟩
        exact ⟨Number.index?_eq_some.mp hx, Number.index?_eq_some.mp hy, hin⟩
      · rfl
  | @put x y w rest hv hs hxy =>
      rw [cellFailure?_of_values hv (i := .grid .put) rfl hs (Nat.le_add_left 3 _)]
      simp only [Instruction.refusal?]
      split
      · rename_i column row hx hy
        exact absurd ⟨column, row, Number.index?_eq_some.mp hx, Number.index?_eq_some.mp hy⟩ hxy
      · rfl

/-- Operands that are refused are in the table.  The catalogue gives the character of the
instruction. -/
lemma failure_of_refusal? {c : Char} {i : Instruction} (hv : Number.IsChar v c)
    (hi : (c, i) ∈ Instruction.catalogue) (hsize : i.demand s.active.register.isSome ≤ s.size)
    (h : i.refusal? g s.values = some (f, n)) : Failure s g v f n := by
  unfold Instruction.refusal? at h
  split at h
  · rename_i x rest hs
    obtain rfl : c = ',' := by simpa [Instruction.catalogue] using hi
    obtain ⟨y, rest', hs⟩ := Stack.exists_below [x] hs hsize
    split_ifs at h with hzero
    cases h
    exact .divisionByZero hv (Or.inl rfl) hs (Number.isZero_iff.mp hzero)
  · rename_i x rest hs
    obtain rfl : c = '%' := by simpa [Instruction.catalogue] using hi
    obtain ⟨y, rest', hs⟩ := Stack.exists_below [x] hs hsize
    split_ifs at h with hzero
    cases h
    exact .divisionByZero hv (Or.inr rfl) hs (Number.isZero_iff.mp hzero)
  · rename_i count rest hs
    obtain rfl : c = '[' := by simpa [Instruction.catalogue] using hi
    have hrest : rest.length = s.size - 1 := by rw [Stack.size_of_values hs]; rfl
    split at h
    · rename_i k hk
      rw [hrest] at h
      split_ifs at h with hshort
      cases h
      exact .shortSubstack hv hs (Number.index?_eq_some.mp hk) hshort
    · rename_i hk
      cases h
      exact .badSubstackSize hv hs (Number.index?_eq_none.mp hk)
  · rename_i t rest hs
    obtain rfl : c = 'o' := by simpa [Instruction.catalogue] using hi
    split at h
    · cases h
    · rename_i ht
      cases h
      exact .unprintable hv hs (Number.char?_eq_none.mp ht)
  · rename_i y x rest hs
    obtain rfl : c = '.' := by simpa [Instruction.catalogue] using hi
    split at h
    · rename_i column row hx hy
      split_ifs at h with hin
      cases h
      refine .jump hv hs ?_
      rintro ⟨column', row', hx', hy', hin'⟩
      obtain rfl := (Number.index?_eq_some.mp hx).unique hx'
      obtain rfl := (Number.index?_eq_some.mp hy).unique hy'
      exact hin hin'
    · rename_i hnone
      cases h
      refine .jump hv hs ?_
      rintro ⟨column, row, hx, hy, -⟩
      exact hnone column row (Number.index?_eq_some.mpr hx) (Number.index?_eq_some.mpr hy)
  · rename_i y x rest hs
    obtain rfl : c = 'p' := by simpa [Instruction.catalogue] using hi
    obtain ⟨w, rest', hs⟩ := Stack.exists_below [y, x] hs hsize
    split at h
    · cases h
    · rename_i hnone
      cases h
      refine .put hv hs ?_
      rintro ⟨column, row, hx, hy⟩
      exact hnone column row (Number.index?_eq_some.mpr hx) (Number.index?_eq_some.mpr hy)
  · cases h

/-- **Executions fail exactly by the table.** -/
theorem cellFailure?_eq_some_iff : cellFailure? v s g = some (f, n) ↔ Failure s g v f n := by
  refine ⟨fun h => ?_, Failure.cellFailure?⟩
  cases hv : Number.char? v with
  | none =>
      simp only [cellFailure?, Instruction.ofCell, hv] at h
      cases h
      exact .notACharacter (Number.char?_eq_none.mp hv)
  | some c =>
      have hchar : Number.IsChar v c := Number.char?_eq_some.mp hv
      cases hi : Instruction.ofChar? c with
      | none =>
          simp only [cellFailure?, Instruction.ofCell, hv, Instruction.ofChar, hi] at h
          cases h
          exact .unknownInstruction hchar (Instruction.ofChar?_eq_none_iff.mp hi)
      | some i =>
          have hdemand := Instruction.demand_of_ofChar? hi s.active.register.isSome
          by_cases hsize : s.size < symbolDemand s.active.register.isSome c
          · rw [(Failure.underflow hchar hsize).cellFailure?] at h
            cases h
            exact .underflow hchar hsize
          · have henough : i.demand s.active.register.isSome ≤ s.size := by omega
            rw [cellFailure?_of_values hchar hi rfl henough] at h
            obtain ⟨d, -, rfl⟩ | hmem := Instruction.ofChar?_eq_some_iff.mp hi
            · cases h
            · exact failure_of_refusal? hchar hmem henough h

/-- The values that a failure has used up were there. -/
lemma Failure.le_size (h : Failure s g v f n) : n ≤ s.size := by
  cases h with
  | notACharacter | unknownInstruction | underflow => exact Nat.zero_le _
  | divisionByZero _ _ hs | unprintable _ hs | badSubstackSize _ hs | shortSubstack _ hs
  | jump _ hs | put _ hs =>
      rw [Stack.size_of_values hs]
      exact Nat.le_add_left _ _

end Table

namespace Machine

variable {κ : Type}

/-- The next step executes an opening bracket, with a count on top of the stack. -/
def ReadsCount (m : Machine κ) : Prop :=
  m.Executes '[' ∧ ∃ t rest n, m.stack.values = t :: rest ∧ Number.IsIndex t n

/-- How many values are gone after a step that ends with a fault. -/
inductive Spent (m : Machine κ) : Fault → Nat → Prop
  | unknownInstruction (c : Char) : Spent m (.unknownInstruction c) 0
  | notACharacter (v : Float) : Spent m (.notACharacter v) 0
  | noCell (x y : Float) (h : m.grid.width = 0) : Spent m (.outside x y) 0
  | underflow (needed available : Nat) (h : ¬ m.ReadsCount) :
      Spent m (.underflow needed available) 0
  | shortSubstack (needed available : Nat) (h : m.ReadsCount) :
      Spent m (.underflow needed available) 1
  | unprintable (v : Float) : Spent m (.unprintable v) 1
  | badSubstackSize (v : Float) : Spent m (.badSubstackSize v) 1
  | divisionByZero : Spent m .divisionByZero 2
  | jump (x y : Float) (h : m.Executes '.') : Spent m (.outside x y) 2
  | put (x y : Float) (h : m.Executes 'p') : Spent m (.outside x y) 3

/-- The table of failures spends as many values as it says. -/
lemma spent_of_failure {m : Machine κ} (hphase : m.phase = .running) {v : Float}
    (hcell : m.advance.cell? = some v) {f : Fault} {n : Nat}
    (h : Failure m.stack m.grid v f n) : m.Spent f n := by
  have hexecutes {c : Char} (hv : Number.IsChar v c) : m.Executes c :=
    ⟨hphase, v, hcell, Number.char?_eq_some.mpr hv⟩
  cases h with
  | notACharacter => exact .notACharacter _
  | unknownInstruction => exact .unknownInstruction _
  | underflow hv hs =>
      refine .underflow _ _ ?_
      rintro ⟨⟨-, v', hcell', hchar⟩, t, rest, n, hvalues, -⟩
      obtain rfl : v = v' := Option.some.inj (hcell.symm.trans hcell')
      obtain rfl : _ = '[' := Option.some.inj ((Number.char?_eq_some.mpr hv).symm.trans hchar)
      -- A bracket needs one value, and the count is one.
      have hempty : m.stack.size < 1 := hs
      rw [Stack.size_of_values hvalues, List.length_cons] at hempty
      omega
  | divisionByZero => exact .divisionByZero
  | unprintable => exact .unprintable _
  | badSubstackSize => exact .badSubstackSize _
  | shortSubstack hv hs ht hn => exact .shortSubstack _ _ ⟨hexecutes hv, _, _, _, hs, ht⟩
  | jump hv => exact .jump _ _ (hexecutes hv)
  | put hv => exact .put _ _ (hexecutes hv)

variable [Compass κ]

/-- A failure in the table ends the step. -/
lemma step_of_failure {m : Machine κ} (hphase : m.phase = .running) {v : Float}
    (hcell : m.advance.cell? = some v) {f : Fault} {n : Nat}
    (h : Failure m.stack m.grid v f n) :
    m.step = .ok ((m.arrived.without n).fail f) := by
  obtain ⟨m', hstep, hm'⟩ := step_of_running hphase hcell
  rw [h.cellFailure?] at hm'
  rw [hstep, hm']

/-- A step that fails has its fault from the table. -/
lemma exists_failure_of_step {m m' : Machine κ} (hphase : m.phase = .running) {v : Float}
    (hcell : m.advance.cell? = some v) (hstep : m.step = .ok m') (hfailed : m'.phase = .failed) :
    ∃ f n, m'.fault? = some f ∧ Failure m.stack m.grid v f n := by
  obtain ⟨m₁, hstep₁, hm₁⟩ := step_of_running hphase hcell
  obtain rfl : m' = m₁ := Except.ok.inj (hstep.symm.trans hstep₁)
  cases hfailure : cellFailure? v m.stack m.grid with
  | none =>
      rw [hfailure] at hm₁
      exact absurd hfailed hm₁
  | some failure =>
      rw [hfailure] at hm₁
      exact ⟨failure.1, failure.2, by rw [hm₁]; rfl, cellFailure?_eq_some_iff.mp hfailure⟩

lemma not_failed_of_reading {m m' : Machine κ} {quote : Char} (hphase : m.phase = .reading quote)
    {v : Float} (hcell : m.advance.cell? = some v) (hstep : m.step = .ok m') :
    m'.phase ≠ .failed := by
  obtain ⟨m₁, hstep₁, hread⟩ := step_of_reading hphase hcell
  obtain rfl : m' = m₁ := Except.ok.inj (hstep.symm.trans hstep₁)
  exact hread

/-- **A step fails by the table.**  A program on a grid with columns that has not ended finds a
cell and makes its step.  If it is running, the step fails and puts a fault on record exactly if the
table of failures has this fault for the cell, the stack and the grid, and it fails in no other way;
if it is reading a string literal, the step does not fail. -/
theorem step_fails_by_table (source : String) (values : List Float) (compass : κ)
    (calls : List HostCall) (hwidth : 0 < (Grid.ofSource source).width)
    (hrunning : ((load source values compass).after calls).hasTerminated = false) :
    let m := (load source values compass).after calls
    ∃ v m', m.advance.cell? = some v ∧ m.step = .ok m' ∧
      (m.phase = .running →
        (m'.phase = .failed ↔ ∃ f n, Failure m.stack m.grid v f n) ∧
          ∀ f, m'.phase = .failed ∧ m'.fault? = some f ↔ ∃ n, Failure m.stack m.grid v f n) ∧
      (∀ quote, m.phase = .reading quote → m'.phase ≠ .failed) := by
  intro m
  have hshaped := (shaped_load source values compass).after calls
  obtain ⟨v, hcell⟩ := Option.isSome_iff_exists.mp
    (hshaped.isSome_cell?_advance hwidth (Grid.height_ofSource_pos source))
  obtain ⟨m', hstep⟩ := exists_step hrunning
  refine ⟨v, m', hcell, hstep, ?_, ?_⟩
  · intro hphase
    have hfails {f : Fault} {n : Nat} (hfailure : Failure m.stack m.grid v f n) :
        m' = (m.arrived.without n).fail f :=
      Except.ok.inj (hstep.symm.trans (step_of_failure hphase hcell hfailure))
    refine ⟨⟨fun hfailed => ?_, ?_⟩, fun f => ⟨?_, ?_⟩⟩
    · obtain ⟨f, n, -, hfailure⟩ := exists_failure_of_step hphase hcell hstep hfailed
      exact ⟨f, n, hfailure⟩
    · rintro ⟨f, n, hfailure⟩
      rw [hfails hfailure]
      rfl
    · rintro ⟨hfailed, hf⟩
      obtain ⟨f', n, hf', hfailure⟩ := exists_failure_of_step hphase hcell hstep hfailed
      obtain rfl : f = f' := Option.some.inj (hf.symm.trans hf')
      exact ⟨n, hfailure⟩
    · rintro ⟨n, hfailure⟩
      rw [hfails hfailure]
      exact ⟨rfl, rfl⟩
  · exact fun quote hphase => not_failed_of_reading hphase hcell hstep

/-- A bracket with a count that is a number but too large: the count is gone already when the
values below it are found to be too few. -/
theorem step_fails_by_table_short_substack :
    let m := (load "12[" [] (⟨[]⟩ : Script)).after [.step, .step]
    ∃ m', m.step = .ok m' ∧ m'.phase = .failed ∧ m'.fault? = some (.underflow 2 1) := by
  intro m
  obtain ⟨v, m', hcell, hstep, htable, -⟩ :=
    step_fails_by_table "12[" [] (⟨[]⟩ : Script) [.step, .step] (by decide +kernel)
      (by decide +kernel)
  have hbracket : m.advance.cell? = some (Number.ofChar '[') := by decide +kernel
  obtain rfl : v = Number.ofChar '[' := Option.some.inj (hcell.symm.trans hbracket)
  have hvalues : m.stack.values = [Number.ofNat 2, Number.ofNat 1] := by decide +kernel
  have hsize : m.stack.size - 1 = 1 := by rw [Stack.size_of_values hvalues]; rfl
  have hrow : Failure m.stack m.grid (Number.ofChar '[') (.underflow 2 (m.stack.size - 1)) 1 :=
    .shortSubstack (Number.char?_eq_some.mp (by decide +kernel)) hvalues
      (Number.index?_eq_some.mp (by decide +kernel)) (by rw [hsize]; decide)
  rw [hsize] at hrow
  exact ⟨m', hstep, ((htable (by decide +kernel)).2 _).mpr ⟨1, hrow⟩⟩

/-- **A failed step is atomic.**  When the step of a program fails, the machine is as it was but for
four things: the step is counted, a fault is on record with the phase of a failure, the pointer has
advanced once and kept its heading, and the operands that the fault had used up are gone from the
top of the stack in use, as many as `Spent` says. -/
theorem failed_step_is_atomic (source : String) (values : List Float) (compass : κ)
    (calls : List HostCall) {m' : Machine κ}
    (hstep : ((load source values compass).after calls).step = .ok m')
    (hfailed : m'.phase = .failed) :
    let m := (load source values compass).after calls
    ∃ f c, m.Spent f c ∧ c ≤ m.stack.size ∧
      m' =
        { m with
          pointer := m.pointer.advance m.grid.width m.grid.height
          stack := m.stack.withValues (m.stack.values.drop c)
          phase := .failed
          steps := m.steps + 1
          fault? := some f } ∧
      m'.pointer.heading = m.pointer.heading := by
  intro m
  have hshaped := (shaped_load source values compass).after calls
  obtain ⟨hend, ⟨hnone, rfl⟩ | ⟨v, hcell, -⟩⟩ := step_cases hstep
  · -- Without a cell there are no columns, and nothing is taken off the stack.
    have hwidth : m.grid.width = 0 := by
      by_contra hne
      have hsome := hshaped.isSome_cell?_advance (hshaped.width_eq ▸ Nat.pos_of_ne_zero hne)
        (Grid.height_ofSource_pos source)
      rw [show m.advance.cell? = none from hnone] at hsome
      cases hsome
    exact ⟨_, 0, .noCell _ _ hwidth, Nat.zero_le _, rfl, rfl⟩
  · have hphase : m.phase = .running := by
      obtain hphase | ⟨quote, hphase⟩ := running_or_reading hend
      · exact hphase
      · exact absurd hfailed (not_failed_of_reading hphase hcell hstep)
    obtain ⟨f, c, -, hfailure⟩ := exists_failure_of_step hphase hcell hstep hfailed
    obtain rfl := Except.ok.inj (hstep.symm.trans (step_of_failure hphase hcell hfailure))
    exact ⟨f, c, spent_of_failure hphase hcell hfailure, hfailure.le_size, rfl, rfl⟩

/-- A write to a row that does not exist.  Its three operands are gone and the grid is as it was. -/
theorem failed_step_is_atomic_refused_write :
    let m := (load "5001-p" [] (⟨[]⟩ : Script)).after (List.replicate 5 .step)
    ∃ m', m.step = .ok m' ∧ m'.phase = .failed ∧
      m'.fault? = some (.outside (Number.ofNat 0) (Number.ofInt (-1))) ∧
      m'.grid = m.grid ∧ m.stack.size = 3 ∧ m'.stack = m.stack.withValues [] := by
  intro m
  obtain ⟨m', hstep⟩ := exists_step (m := m) (by decide +kernel)
  have hfailed : m'.phase = .failed ∧
      m'.fault? = some (.outside (Number.ofNat 0) (Number.ofInt (-1))) := by
    rw [← HostCall.apply_step_of_ok hstep]
    decide +kernel
  have hvalues : m.stack.values = [Number.ofInt (-1), Number.ofNat 0, Number.ofNat 5] := by
    decide +kernel
  have hput : m.advance.cell? = some (Number.ofChar 'p') := by decide +kernel
  obtain ⟨f, c, hspent, -, hm', -⟩ :=
    failed_step_is_atomic "5001-p" [] (⟨[]⟩ : Script) (List.replicate 5 .step) hstep hfailed.1
  obtain rfl : f = .outside (Number.ofNat 0) (Number.ofInt (-1)) := by
    have hf : m'.fault? = some f := by rw [hm']
    exact Option.some.inj (hf.symm.trans hfailed.2)
  obtain rfl : c = 3 := by
    cases hspent with
    | noCell x y hwidth => exact absurd hwidth (by decide +kernel)
    | jump x y hjump =>
        obtain ⟨-, cell, hcell, hchar⟩ := hjump
        obtain rfl : cell = Number.ofChar 'p' := Option.some.inj (hcell.symm.trans hput)
        exact absurd hchar (by decide +kernel)
    | put x y hput => rfl
  have hgrid : m'.grid = m.grid := by rw [hm']
  have hstack : m'.stack = m.stack.withValues (m.stack.values.drop 3) := by rw [hm']
  have hgone : m.stack.values.drop 3 = [] := by rw [hvalues]; rfl
  rw [hgone] at hstack
  exact ⟨m', hstep, hfailed.1, hfailed.2, hgrid, Stack.size_of_values hvalues, hstack⟩

end Machine

end Aquarium
