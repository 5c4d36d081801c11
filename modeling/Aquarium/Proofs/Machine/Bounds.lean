import Aquarium.Proofs.Machine.Record

/-!
# The pointer stays on the grid

A pointer starts one cell outside the grid.  From its first step on it is on the grid for good,
because a step of the pointer wraps around, a jump is checked, and nothing else moves it; and the
sizes of the grid never change (`Shaped`).  So every step finds a cell, and the fault of leaving
the grid can only be that of a jump or of a write whose operands name no place.

A program without any character has a grid without columns.  Its first step finds no cell and
ends it.
-/

namespace Aquarium

namespace Machine

variable {κ : Type}

/-- A machine on a filled grid of the given sizes. -/
structure Shaped (width height : Nat) (m : Machine κ) : Prop where
  width_eq : m.grid.width = width
  height_eq : m.grid.height = height
  filled : m.grid.Filled

/-- The pointer of the machine stands on the grid. -/
def InGrid (m : Machine κ) : Prop := m.pointer.OnTorus m.grid.width m.grid.height

/-- The sizes of a grid that has cells, each of which a jump can reach. -/
structure Walkable (width height : Nat) : Prop where
  width_pos : 0 < width
  height_pos : 0 < height
  width_lt : width < 2 ^ 63
  height_lt : height < 2 ^ 63

variable {width height : Nat}

lemma shaped_load (source : String) (values : List Float) (compass : κ) :
    Shaped (Grid.ofSource source).width (Grid.ofSource source).height
      (load source values compass) :=
  ⟨rfl, rfl, Grid.filled_ofSource source⟩

lemma Shaped.set {m : Machine κ} (h : m.Shaped width height) (column row : Nat) (v : Float) :
    Shaped width height { m with grid := m.grid.set column row v } :=
  ⟨by simpa using h.width_eq, by simpa using h.height_eq, h.filled.set column row v⟩

lemma stable_shaped : Stable (Shaped width height : Machine κ → Prop) where
  stack _ _ hm := ⟨hm.1, hm.2, hm.3⟩
  turn _ _ _ hm := ⟨hm.1, hm.2, hm.3⟩
  advance _ hm := ⟨hm.1, hm.2, hm.3⟩
  jump _ _ _ _ _ hm := ⟨hm.1, hm.2, hm.3⟩
  set _ column row v hm := hm.set column row v
  input _ _ hm := ⟨hm.1, hm.2, hm.3⟩
  emit _ _ hm := ⟨hm.1, hm.2, hm.3⟩
  phase _ _ _ hm := ⟨hm.1, hm.2, hm.3⟩

lemma Shaped.advance_inGrid {m : Machine κ} (h : m.Shaped width height) (hw : 0 < width)
    (hh : 0 < height) : m.advance.InGrid :=
  Pointer.advance_onTorus (by rw [h.width_eq]; exact hw) (by rw [h.height_eq]; exact hh) m.pointer

/-- The sizes of the grid and the place of the pointer survive every instruction.  Here the bound
on the sizes is used: a jump reads its target as a signed number. -/
lemma stable_inGrid (hsizes : Walkable width height) :
    Stable fun m : Machine κ => m.Shaped width height ∧ m.InGrid where
  stack m s hm := ⟨stable_shaped.stack m s hm.1, hm.2⟩
  turn m h c hm := ⟨stable_shaped.turn m h c hm.1, hm.2⟩
  advance m hm :=
    ⟨stable_shaped.advance m hm.1, hm.1.advance_inGrid hsizes.width_pos hsizes.height_pos⟩
  jump m x y p hp hm := by
    refine ⟨stable_shaped.jump m x y p hp hm.1, ?_⟩
    refine Pointer.jump_onTorus ?_ ?_ hp
    · rw [hm.1.width_eq]; exact hsizes.width_lt
    · rw [hm.1.height_eq]; exact hsizes.height_lt
  set m column row v hm := by
    refine ⟨hm.1.set column row v, ?_⟩
    simpa only [InGrid, Grid.width_set, Grid.height_set] using hm.2
  input m q hm := ⟨stable_shaped.input m q hm.1, hm.2⟩
  emit m e hm := ⟨stable_shaped.emit m e hm.1, hm.2⟩
  phase m ph hph hm := ⟨stable_shaped.phase m ph hph hm.1, hm.2⟩

/-- On a grid with cells there is always a next one. -/
lemma Shaped.isSome_cell?_advance {m : Machine κ} (h : m.Shaped width height) (hw : 0 < width)
    (hh : 0 < height) : m.advance.cell?.isSome :=
  (Grid.cell?_isSome_iff h.filled _ _).mpr (h.advance_inGrid hw hh)

lemma Shaped.isSome_nextPosition {m : Machine κ} (h : m.Shaped width height) (hw : 0 < width)
    (hh : 0 < height) : m.nextPosition.isSome := by
  simp only [nextPosition, Option.isSome_map]
  exact h.isSome_cell?_advance hw hh

/-- The next step executes a cell with the given character. -/
def Executes (m : Machine κ) (c : Char) : Prop :=
  m.phase = .running ∧ ∃ cell, m.advance.cell? = some cell ∧ Number.char? cell = some c

/-- The character that the next step executes, if it executes one. -/
def symbol? (m : Machine κ) : Option Char :=
  match m.phase with
  | .running => m.advance.cell?.bind Number.char?
  | _ => none

lemma executes_iff {m : Machine κ} {c : Char} : m.Executes c ↔ m.symbol? = some c := by
  unfold Executes symbol?
  cases m.phase with
  | running => simp only [true_and, Option.bind_eq_some_iff]
  | _ => simp

/-- A machine that has not ended runs or reads. -/
lemma running_or_reading {m : Machine κ} (h : m.hasTerminated = false) :
    m.phase = .running ∨ ∃ quote, m.phase = .reading quote := by
  unfold hasTerminated at h
  cases hphase : m.phase with
  | running => exact Or.inl rfl
  | reading quote => exact Or.inr ⟨quote, rfl⟩
  | halted | failed =>
      rw [hphase] at h
      cases h

/-- On a grid without columns there is no first cell. -/
lemma cell?_advance_of_width_eq_zero {m : Machine κ} (h : m.grid.width = 0) :
    m.advance.cell? = none := by
  have hout : ¬ (0 ≤ m.advance.pointer.x ∧ 0 ≤ m.advance.pointer.y ∧
      m.advance.pointer.x < m.grid.width ∧ m.advance.pointer.y < m.grid.height) := by
    rw [h]
    omega
  exact if_neg hout

lemma nextPosition_of_width_eq_zero {m : Machine κ} (h : m.grid.width = 0) :
    m.nextPosition = none := by
  simp only [nextPosition, cell?_advance_of_width_eq_zero h, Option.map_none]

/-- Where there is a next cell, the grid has one. -/
lemma sizes_pos_of_cell?_advance {m : Machine κ} {cell : Float} (h : m.advance.cell? = some cell) :
    0 < m.grid.width ∧ 0 < m.grid.height := by
  have hcovers : m.grid.Covers m.advance.pointer.x m.advance.pointer.y := by
    by_contra hout
    have hnone : m.advance.cell? = none := if_neg hout
    rw [hnone] at h
    cases h
  obtain ⟨hx, hy, hxw, hyh⟩ := hcovers
  omega

variable [Compass κ]

/-- To execute a character is to execute its instruction on arrival. -/
lemma visit_of_executes {m : Machine κ} {c : Char} {i : Instruction} (h : m.Executes c)
    (hi : Instruction.ofChar? c = some i) :
    m.hasTerminated = false ∧
      ∃ cell, m.arrived.cell? = some cell ∧ visit cell m.arrived = execute i m.arrived := by
  obtain ⟨hphase, cell, hcell, hchar⟩ := h
  have hrunning : m.arrived.phase = .running := hphase
  refine ⟨by rw [hasTerminated, hphase, Phase.isFinal], cell, hcell, ?_⟩
  simp only [visit, hrunning, Instruction.ofCell, hchar, Instruction.ofChar, hi]

/-- The step that executes a character does what its instruction does on arrival. -/
lemma step_of_executes {m m' : Machine κ} {c : Char} {i : Instruction} (h : m.Executes c)
    (hi : Instruction.ofChar? c = some i) (hexecute : execute i m.arrived = .ok () m') :
    m.step = .ok m' := by
  obtain ⟨hend, cell, hcell, hvisit⟩ := visit_of_executes h hi
  simp only [step_eq hend, hcell, hvisit, hexecute]

/-- A fault of the instruction ends the machine. -/
lemma step_of_executes_error {m m' : Machine κ} {c : Char} {i : Instruction} {f : Fault}
    (h : m.Executes c) (hi : Instruction.ofChar? c = some i)
    (hexecute : execute i m.arrived = .error f m') :
    m.step = .ok (m'.fail f) := by
  obtain ⟨hend, cell, hcell, hvisit⟩ := visit_of_executes h hi
  simp only [step_eq hend, hcell, hvisit, hexecute]

lemma Shaped.step {m m' : Machine κ} (h : m.Shaped width height) (hstep : m.step = .ok m') :
    m'.Shaped width height :=
  stable_shaped.step (fun _ _ hm => ⟨hm.1, hm.2, hm.3⟩) hstep ⟨h.1, h.2, h.3⟩

lemma Shaped.after {m : Machine κ} (h : m.Shaped width height) (calls : List HostCall) :
    (m.after calls).Shaped width height :=
  after_keeps (fun _ _ _ hm => ⟨hm.1, hm.2, hm.3⟩) (fun _ _ hm hs => hm.step hs) calls m h

/-- A step ends on the grid, wherever it began. -/
lemma Shaped.step_inGrid {m m' : Machine κ} (h : m.Shaped width height)
    (hsizes : Walkable width height) (hstep : m.step = .ok m') : m'.InGrid := by
  have harrived : m.arrived.Shaped width height ∧ m.arrived.InGrid := by
    have hcounted : Shaped width height { m with steps := m.steps + 1 } := ⟨h.1, h.2, h.3⟩
    exact ⟨stable_shaped.advance _ hcounted,
      hcounted.advance_inGrid hsizes.width_pos hsizes.height_pos⟩
  have hstable : Stable fun m : Machine κ => m.Shaped width height ∧ m.InGrid :=
    stable_inGrid hsizes
  exact (hstable.step (fun _ _ hm => ⟨⟨hm.1.1, hm.1.2, hm.1.3⟩, hm.2⟩) hstep harrived).2

/-! ## Whole runs -/

/-- Once the pointer is on the grid it stays there. -/
lemma Shaped.after_inGrid {m : Machine κ} (h : m.Shaped width height)
    (hsizes : Walkable width height) (hm : m.InGrid) (calls : List HostCall) :
    (m.after calls).InGrid := by
  have hqueues : ∀ (n : Machine κ) (input : Queue Char) (output : Queue Emission),
      n.Shaped width height ∧ n.InGrid →
        Shaped width height { n with input := input, output := output } ∧
          InGrid { n with input := input, output := output } :=
    fun _ _ _ hn => ⟨⟨hn.1.1, hn.1.2, hn.1.3⟩, hn.2⟩
  have hstep : ∀ n n' : Machine κ, n.Shaped width height ∧ n.InGrid → n.step = .ok n' →
      n'.Shaped width height ∧ n'.InGrid :=
    fun _ _ hn hs => ⟨hn.1.step hs, hn.1.step_inGrid hsizes hs⟩
  exact (after_keeps hqueues hstep calls m ⟨h, hm⟩).2

/-- The first step brings the pointer onto the grid. -/
lemma Shaped.after_inGrid_of_mem_step {m : Machine κ} (h : m.Shaped width height)
    (hsizes : Walkable width height) (hrunning : m.hasTerminated = false) {calls : List HostCall}
    (hcalls : .step ∈ calls) : (m.after calls).InGrid := by
  obtain ⟨before, later, rfl, hfirst⟩ := List.eq_append_cons_of_mem hcalls
  have hbefore : (m.after before).hasTerminated = false := by
    obtain ⟨input, output, hm⟩ := after_of_not_mem_step hfirst m
    rw [hm]
    exact hrunning
  obtain ⟨m', hstep⟩ := exists_step hbefore
  have hshaped := h.after before
  rw [after_append, after_cons, HostCall.apply_step_of_ok hstep]
  exact (hshaped.step hstep).after_inGrid hsizes (hshaped.step_inGrid hsizes hstep) later

/-- A step that ends outside the grid, although there was a next cell, executed a jump or a
write. -/
lemma executes_of_step_outside {m m' : Machine κ} {x y : Float} (hm : m.Recorded)
    (hcell : m.advance.cell?.isSome) (hstep : m.step = .ok m')
    (hfault : m'.fault? = some (.outside x y)) :
    m.Executes '.' ∨ m.Executes 'p' := by
  obtain ⟨hend, ⟨hnone, -⟩ | ⟨cell, hsome, hv | ⟨f, m₁, hv, rfl⟩⟩⟩ := step_cases hstep
  · rw [show m.advance.cell? = none from hnone] at hcell
    cases hcell
  · have hnone : m.arrived.fault? = none := hm.fault?_eq_none hend
    rw [fault?_of_visit hv, hnone] at hfault
    cases hfault
  · cases hfault
    obtain ⟨hreading, hinstruction⟩ := visit_outside hv
    have hrunning : m.phase = .running :=
      (running_or_reading hend).resolve_right fun ⟨quote, hphase⟩ => hreading quote hphase
    rcases hinstruction with hjump | hput
    · exact Or.inl ⟨hrunning, cell, hsome, Instruction.char?_of_ofCell_jump hjump⟩
    · exact Or.inr ⟨hrunning, cell, hsome, Instruction.char?_of_ofCell_put hput⟩

/-- A fault on record was recorded by one of the steps that were made. -/
lemma exists_step_of_fault? {m : Machine κ} (hm : m.fault? = none) {calls : List HostCall}
    {f : Fault} (h : (m.after calls).fault? = some f) :
    ∃ before later m', calls = before ++ .step :: later ∧
      (m.after before).step = .ok m' ∧ m'.fault? = some f := by
  -- The last call recorded the fault or found it on record.
  induction calls using List.reverseRecOn with
  | nil =>
      rw [after_nil, hm] at h
      cases h
  | append_singleton calls call ih =>
      rw [after_append, after_cons, after_nil] at h
      by_cases hmade : call = .step ∧ (m.after calls).hasTerminated = false
      · obtain ⟨rfl, hend⟩ := hmade
        obtain ⟨m', hstep⟩ := exists_step hend
        rw [HostCall.apply_step_of_ok hstep] at h
        exact ⟨calls, [], m', rfl, hstep, h⟩
      · obtain ⟨input, output, hkept⟩ : ∃ input output, call.apply (m.after calls) =
            { m.after calls with input := input, output := output } := by
          by_cases hcall : call = .step
          · exact HostCall.apply_of_terminated (by simpa [hcall] using hmade) call
          · exact HostCall.apply_of_ne_step hcall _
        rw [hkept] at h
        obtain ⟨before, later, m', rfl, hstep, hfault⟩ := ih h
        exact ⟨before, later ++ [call], m', by simp, hstep, hfault⟩

/-- On a grid without columns the first step ends the machine at the origin. -/
lemma step_of_width_eq_zero {m : Machine κ} (h : m.grid.width = 0) (hstart : m.pointer = .start)
    (hrunning : m.hasTerminated = false) :
    ∃ m', m.step = .ok m' ∧ m'.phase = .failed ∧
      m'.fault? = some (.outside (Number.ofNat 0) (Number.ofNat 0)) := by
  have hx : m.arrived.pointer.x = 0 := by
    simp [arrived, advance, Pointer.advance, hstart, Pointer.start, h, Pointer.wrap, Heading.dx]
  have hy : m.arrived.pointer.y = 0 := by
    simp [arrived, advance, Pointer.advance, hstart, Pointer.start, Pointer.wrap, Heading.dy]
  have hcell : m.arrived.cell? = none := cell?_advance_of_width_eq_zero h
  rw [step_eq hrunning, hcell]
  refine ⟨_, rfl, rfl, ?_⟩
  rw [fail, lost, hx, hy]
  rfl

/-- **The pointer stays on the grid and every step finds a cell.**  Whatever the host does with a
loaded program, from the first step on the pointer is on the grid, there is always a next cell,
and a fault outside the grid was recorded by a step that executed a jump or a write.  A grid
always has a row.  If it has no column, there is no next cell and the first step ends the program
at the origin. -/
theorem pointer_on_grid_and_fetch_succeeds (source : String) (values : List Float) (compass : κ)
    (calls : List HostCall) (hw : (Grid.ofSource source).width < 2 ^ 63)
    (hh : (Grid.ofSource source).height < 2 ^ 63) :
    let start := load source values compass
    0 < start.grid.height ∧
      (0 < start.grid.width →
        (.step ∈ calls → (start.after calls).InGrid) ∧
          (start.after calls).nextPosition.isSome ∧
          (start.after calls).advance.cell?.isSome ∧
          ∀ x y, (start.after calls).fault? = some (.outside x y) →
            ∃ before later m', calls = before ++ .step :: later ∧
              (start.after before).step = .ok m' ∧ m'.fault? = some (.outside x y) ∧
              ((start.after before).Executes '.' ∨ (start.after before).Executes 'p')) ∧
      (start.grid.width = 0 → .step ∉ calls →
        (start.after calls).nextPosition = none ∧
          ∃ m', (start.after calls).step = .ok m' ∧ m'.phase = .failed ∧
            m'.fault? = some (.outside (Number.ofNat 0) (Number.ofNat 0))) := by
  intro start
  have hheight : 0 < start.grid.height := Grid.height_ofSource_pos source
  have hshaped : start.Shaped start.grid.width start.grid.height :=
    shaped_load source values compass
  refine ⟨hheight, ?_, ?_⟩
  · intro hwidth
    have hcell : ∀ calls, (start.after calls).advance.cell?.isSome :=
      fun calls => (hshaped.after calls).isSome_cell?_advance hwidth hheight
    refine ⟨?_, (hshaped.after calls).isSome_nextPosition hwidth hheight, hcell calls, ?_⟩
    · intro hstep
      exact hshaped.after_inGrid_of_mem_step ⟨hwidth, hheight, hw, hh⟩ rfl hstep
    · intro x y hfault
      obtain ⟨before, later, m', hcalls, hstep, hm'⟩ := exists_step_of_fault? rfl hfault
      have hrecorded := (recorded_load source values compass).after before
      exact ⟨before, later, m', hcalls, hstep, hm',
        executes_of_step_outside hrecorded (hcell before) hstep hm'⟩
  · intro hwidth hnone
    obtain ⟨input, output, hm⟩ := after_of_not_mem_step hnone start
    rw [hm]
    exact ⟨nextPosition_of_width_eq_zero hwidth, step_of_width_eq_zero hwidth rfl rfl⟩

/-- A jump that misses its grid: the third step records the fault, with the pointer on the cell of
the jump. -/
theorem pointer_on_grid_after_missed_jump :
    let start := load "99." [] (⟨[]⟩ : Script)
    let calls : List HostCall := [.step, .step, .feed "a", .step]
    (start.after calls).fault? = some (.outside (Number.ofNat 9) (Number.ofNat 9)) ∧
      (start.after calls).InGrid ∧
      ∃ before later m', calls = before ++ .step :: later ∧
        (start.after before).step = .ok m' ∧
        m'.fault? = some (.outside (Number.ofNat 9) (Number.ofNat 9)) ∧
        ((start.after before).Executes '.' ∨ (start.after before).Executes 'p') := by
  intro start calls
  have hfault : (start.after calls).fault? =
      some (.outside (Number.ofNat 9) (Number.ofNat 9)) := by decide +kernel
  have hsafe := pointer_on_grid_and_fetch_succeeds "99." [] (⟨[]⟩ : Script) calls
    (by decide +kernel) (by decide +kernel)
  have hpositive := hsafe.2.1 (by decide +kernel)
  exact ⟨hfault, hpositive.1 (by decide), hpositive.2.2.2 _ _ hfault⟩

end Machine

end Aquarium
