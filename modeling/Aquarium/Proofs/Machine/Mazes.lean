import Aquarium.Proofs.Machine.Queues

/-!
# Mazes of mirrors

A program of nothing but blanks and mirrors of a fixed kind moves its pointer and does nothing
else.  Each of its steps can be taken back.  The step of the pointer is a bijection of the torus,
and so is the turn on the cell it comes to, because every such mirror undoes itself on the way
back (`involutive_deflected`).  Together this is `Grid.bijOn_travel`.

There are only finitely many places and headings, and a path that can be traced back cannot run
into itself from outside.  So the pointer comes back to where it was after its first step, and
repeats its path from there on (`exists_period`).
-/

namespace Aquarium

/-! ## Mirrors that undo themselves -/

namespace Mirror

/-- The characters of a maze: a blank and the mirrors that neither set the heading nor draw it. -/
def mazeSymbols : List Char := [' ', '/', '\\', '|', '_', '#']

/-- The heading with which a traveller leaves a cell of a maze. -/
def deflected : Char → Heading → Heading
  | '/' => acrossSlash
  | '\\' => acrossBackslash
  | '|' => acrossVertical
  | '_' => acrossHorizontal
  | '#' => Heading.reversed
  | _ => id

/-- To be turned twice is not to be turned. -/
lemma involutive_deflected (c : Char) : Function.Involutive (deflected c) := by
  unfold deflected
  split
  all_goals
    intro h
    cases h <;> rfl

end Mirror

/-! ## Travelling through a maze -/

namespace Grid

/-- All cells of the grid are blanks or mirrors of a fixed kind. -/
def Maze (g : Grid) : Prop := ∀ cell ∈ g.cells, Number.char? cell ∈ Mirror.mazeSymbols.map some

instance (g : Grid) : Decidable g.Maze := inferInstanceAs (Decidable (∀ cell ∈ g.cells, _))

/-- The pointer turned by the cell it stands on. -/
def deflect (g : Grid) (p : Pointer) : Pointer :=
  match (g.cell? p.x p.y).bind Number.char? with
  | some c => { p with heading := Mirror.deflected c p.heading }
  | none => p

/-- One step of the pointer through a maze: it moves on and is turned. -/
def travel (g : Grid) (p : Pointer) : Pointer := g.deflect (p.advance g.width g.height)

variable {g : Grid}

lemma deflect_of_symbol {p : Pointer} {c : Char}
    (h : (g.cell? p.x p.y).bind Number.char? = some c) :
    g.deflect p = { p with heading := Mirror.deflected c p.heading } := by
  rw [deflect, h]

/-- Turning does not move the pointer. -/
lemma deflect_onTorus {p : Pointer} {width height : Nat} (h : p.OnTorus width height) :
    (g.deflect p).OnTorus width height := by
  unfold deflect
  split
  · exact h
  · exact h

lemma deflect_deflect (p : Pointer) : g.deflect (g.deflect p) = p := by
  cases hsymbol : (g.cell? p.x p.y).bind Number.char? with
  | none => simp only [deflect, hsymbol]
  | some c =>
      rw [deflect_of_symbol hsymbol]
      simp only [deflect, hsymbol, Mirror.involutive_deflected c p.heading]

lemma travel_onTorus (hw : 0 < g.width) (hh : 0 < g.height) (p : Pointer) :
    (g.travel p).OnTorus g.width g.height :=
  deflect_onTorus (Pointer.advance_onTorus hw hh p)

/-- **Travelling is reversible**: it is a bijection of the places and headings of the torus. -/
lemma bijOn_travel (hw : 0 < g.width) (hh : 0 < g.height) :
    Set.BijOn g.travel {p | p.OnTorus g.width g.height} {p | p.OnTorus g.width g.height} := by
  have hturn : Set.BijOn g.deflect {p | p.OnTorus g.width g.height}
      {p | p.OnTorus g.width g.height} := by
    have hinverse : Set.InvOn g.deflect g.deflect {p | p.OnTorus g.width g.height}
        {p | p.OnTorus g.width g.height} :=
      ⟨fun p _ => deflect_deflect p, fun p _ => deflect_deflect p⟩
    exact hinverse.bijOn (fun _ hp => deflect_onTorus hp) (fun _ hp => deflect_onTorus hp)
  exact hturn.comp (Pointer.bijOn_advance hw hh)

/-! ## Periods -/

/-- Whoever moves by a bijection in a finite set comes back to the start. -/
lemma exists_iterate_eq_self {α : Type} {f : α → α} {s : Finset α} (hf : Set.BijOn f s s) {a : α}
    (ha : a ∈ s) : ∃ P, 1 ≤ P ∧ P ≤ s.card ∧ f^[P] a = a := by
  have hcard : s.card < (Finset.range (s.card + 1)).card := by
    rw [Finset.card_range]
    exact Nat.lt_succ_self _
  have hmaps : Set.MapsTo (fun k => f^[k] a) (Finset.range (s.card + 1)) s :=
    fun k _ => hf.mapsTo.iterate k ha
  obtain ⟨i, hi, j, hj, hne, heq⟩ :=
    Finset.exists_ne_map_eq_of_card_lt_of_maps_to hcard hmaps
  wlog hij : i < j generalizing i j
  · exact this j hj i hi hne.symm heq.symm (by omega)
  rw [Finset.mem_range] at hi hj
  refine ⟨j - i, by omega, by omega, ?_⟩
  refine hf.injOn.iterate hf.mapsTo i (hf.mapsTo.iterate (j - i) ha) ha ?_
  rw [← Function.iterate_add_apply, Nat.add_sub_cancel' hij.le]
  exact heq.symm

/-- From the first step on the pointer repeats its path, at the latest after it has been at every
place with every heading. -/
lemma exists_period (hw : 0 < g.width) (hh : 0 < g.height) (p : Pointer) :
    ∃ P, 1 ≤ P ∧ P ≤ 4 * g.width * g.height ∧
      ∀ n, g.travel^[1 + n + P] p = g.travel^[1 + n] p := by
  have hbij : Set.BijOn g.travel (Pointer.torus g.width g.height)
      (Pointer.torus g.width g.height) := by
    rw [Pointer.coe_torus]
    exact bijOn_travel hw hh
  have hfirst : g.travel p ∈ Pointer.torus g.width g.height := by
    rw [← Finset.mem_coe, Pointer.coe_torus]
    exact travel_onTorus hw hh p
  obtain ⟨P, hpos, hle, hback⟩ := exists_iterate_eq_self hbij hfirst
  refine ⟨P, hpos, hle.trans (Pointer.card_torus_le _ _), fun n => ?_⟩
  have hsplit : 1 + n + P = n + P + 1 := by omega
  rw [hsplit, Function.iterate_succ_apply, Function.iterate_add_apply, hback, Nat.add_comm 1 n,
    Function.iterate_succ_apply]

/-- Every cell of a maze has one of its characters. -/
lemma Maze.exists_symbol (h : g.Maze) (hf : g.Filled) {p : Pointer}
    (hp : p.OnTorus g.width g.height) :
    ∃ cell c, g.cell? p.x p.y = some cell ∧ Number.char? cell = some c ∧
      c ∈ Mirror.mazeSymbols := by
  obtain ⟨cell, hcell⟩ := Option.isSome_iff_exists.mp ((cell?_isSome_iff hf _ _).mpr hp)
  have hmem : cell ∈ g.cells := by
    unfold cell? at hcell
    split_ifs at hcell
    exact Array.mem_of_getElem? hcell
  obtain ⟨c, hc, hchar⟩ := List.mem_map.mp (h cell hmem)
  exact ⟨cell, c, hcell, hchar.symm, hc⟩

end Grid

/-! ## Machines in a maze -/

namespace Machine

variable {κ : Type}

/-- A machine that runs in a maze. -/
structure InMaze (m : Machine κ) : Prop where
  maze : m.grid.Maze
  filled : m.grid.Filled
  width_pos : 0 < m.grid.width
  height_pos : 0 < m.grid.height
  running : m.phase = .running

variable {m : Machine κ}

/-- Wherever it is, the machine is in the maze. -/
lemma InMaze.withPointer (h : m.InMaze) (p : Pointer) (steps : Nat) :
    InMaze { m with pointer := p, steps := steps } :=
  ⟨h.maze, h.filled, h.width_pos, h.height_pos, h.running⟩

variable [Compass κ]

/-- The instruction of a character of a maze turns the pointer and does nothing else. -/
lemma execute_mazeSymbol {c : Char} (h : c ∈ Mirror.mazeSymbols) (m : Machine κ) :
    ∃ i, Instruction.ofChar? c = some i ∧ execute i m =
      .ok () { m with
        pointer := { m.pointer with heading := Mirror.deflected c m.pointer.heading } } := by
  simp only [Mirror.mazeSymbols, List.mem_cons, List.not_mem_nil, or_false] at h
  rcases h with rfl | rfl | rfl | rfl | rfl | rfl
  all_goals exact ⟨_, rfl, rfl⟩

/-- **A step in a maze** moves the pointer and does nothing else. -/
lemma InMaze.step_eq (h : m.InMaze) :
    m.step = .ok { m with pointer := m.grid.travel m.pointer, steps := m.steps + 1 } := by
  have hon : m.advance.pointer.OnTorus m.grid.width m.grid.height :=
    Pointer.advance_onTorus h.width_pos h.height_pos m.pointer
  obtain ⟨cell, c, hcell, hchar, hc⟩ := h.maze.exists_symbol h.filled hon
  obtain ⟨i, hi, hexecute⟩ := execute_mazeSymbol hc m.arrived
  have hturn : m.grid.travel m.pointer =
      { m.advance.pointer with heading := Mirror.deflected c m.advance.pointer.heading } := by
    refine Grid.deflect_of_symbol (p := m.advance.pointer) ?_
    rw [hcell, Option.bind_some, hchar]
  rw [step_of_executes ⟨h.running, cell, hcell, hchar⟩ hi hexecute, hturn]
  rfl

/-- A run in a maze moves the pointer and does nothing else. -/
lemma InMaze.run_eq (h : m.InMaze) (k : Nat) :
    m.run k = { m with pointer := m.grid.travel^[k] m.pointer, steps := m.steps + k } := by
  induction k with
  | zero => rfl
  | succ k ih =>
      rw [run_succ, ih, HostCall.apply_step_of_ok (h.withPointer _ _).step_eq,
        Function.iterate_succ_apply']
      rfl

/-- **Mazes are reversible and never end.**  Load any source with columns whose cells are blanks and
mirrors of the kinds `/`, `\`, `|`, `_` and `#`, with any values, any compass and any input.  A step
moves the pointer on by one cell and turns it by the mirror there, and this is a bijection of the
places of the grid with their headings.  No number of steps ends the program or changes anything but
the pointer and the number of steps, and from the first step on the pointer repeats its path, with a
period of at most four times the number of cells. -/
theorem maze_is_reversible_and_periodic (source : String) (values : List Float) (compass : κ)
    (input : String) (hwidth : 0 < (Grid.ofSource source).width)
    (hmaze : (Grid.ofSource source).Maze) :
    let m := (load source values compass).feed input
    (∀ p, HostCall.step.apply { m with pointer := p } =
        { m with pointer := m.grid.travel p, steps := 1 }) ∧
      Set.BijOn (fun p => (HostCall.step.apply { m with pointer := p }).pointer)
        {p | p.OnTorus m.grid.width m.grid.height} {p | p.OnTorus m.grid.width m.grid.height} ∧
      (∀ k, (m.run k).hasTerminated = false ∧
        m.run k = { m with pointer := (m.run k).pointer, steps := k }) ∧
      ∃ P, 1 ≤ P ∧ P ≤ 4 * m.grid.width * m.grid.height ∧
        ∀ n, (m.run (1 + n + P)).pointer = (m.run (1 + n)).pointer := by
  intro m
  have hin : m.InMaze := ⟨hmaze, Grid.filled_ofSource source, hwidth,
    Grid.height_ofSource_pos source, rfl⟩
  have hstep (p : Pointer) : HostCall.step.apply { m with pointer := p } =
      { m with pointer := m.grid.travel p, steps := 1 } :=
    HostCall.apply_step_of_ok (hin.withPointer p m.steps).step_eq
  refine ⟨hstep, ?_, ?_, ?_⟩
  · refine (Grid.bijOn_travel hin.width_pos hin.height_pos).congr fun p _ => ?_
    rw [hstep]
  · intro k
    have hsteps : m.steps + k = k := Nat.zero_add k
    rw [hin.run_eq, hsteps]
    exact ⟨rfl, rfl⟩
  · obtain ⟨P, hpos, hle, hperiod⟩ := Grid.exists_period hin.width_pos hin.height_pos m.pointer
    refine ⟨P, hpos, hle, fun n => ?_⟩
    rw [hin.run_eq, hin.run_eq]
    exact hperiod n

/-- A maze of three columns and two rows with all kinds of mirrors, a value on the stack and input
that nobody reads.  A thousand steps change none of these. -/
theorem maze_is_reversible_and_periodic_of_six_cells :
    let m := (load "\\ #\n_|/" [Number.ofNat 7] (⟨[]⟩ : Script)).feed "a"
    (m.run 1000).hasTerminated = false ∧ (m.run 1000).stack = .ofValues [Number.ofNat 7] ∧
      (m.run 1000).input = ⟨['a']⟩ ∧
      ∃ P, 1 ≤ P ∧ P ≤ 24 ∧ ∀ n, (m.run (1 + n + P)).pointer = (m.run (1 + n)).pointer := by
  intro m
  obtain ⟨-, -, hruns, hperiod⟩ := maze_is_reversible_and_periodic "\\ #\n_|/" [Number.ofNat 7]
    (⟨[]⟩ : Script) "a" (by decide +kernel) (by decide +kernel)
  obtain ⟨hend, hrun⟩ := hruns 1000
  have hcells : 4 * m.grid.width * m.grid.height = 24 := by decide +kernel
  rw [hcells] at hperiod
  exact ⟨hend, congrArg Machine.stack hrun, congrArg Machine.input hrun, hperiod⟩

end Machine

end Aquarium
