import Aquarium.Machine
import Aquarium.Proofs.Action
import Aquarium.Proofs.Grid.Shape
import Aquarium.Proofs.Pointer.Torus
import Aquarium.Proofs.Stack.Values

/-!
# What instructions can do to a machine

`execute` has a case for every instruction, but seen from outside there are few ways in which an
instruction changes a machine.  `Change` lists them, and `changes` says which of them an
instruction makes: a property that survives these survives the instruction (`keeps_execute`).  In
particular each part of the machine is left alone by all instructions that do not change it
(`untouched_execute`).

A property that survives all changes (`Stable`) survives every instruction, every visit of a cell
(`Stable.visit`) and, the pointer and the step counter apart, every step (`Stable.step`).

Faults are treated in the same way.  Stack instructions and operators have three kinds of faults
(`Fault.IsOfStack`), and the fault of naming a place outside the grid comes from a jump or from a
write only (`raises_execute`).
-/

namespace Aquarium

namespace GridCommand

lemma grid_after_get (s : Stack) (g : Grid) : (stateAfter get.run (s, g)).2 = g := by
  simp only [stateAfter, run]
  rcases s.values with _ | ⟨y, _ | ⟨x, rest⟩⟩ <;> rfl

/-- A write leaves the grid alone or changes it in one place. -/
lemma grid_after_put (s : Stack) (g : Grid) :
    (stateAfter put.run (s, g)).2 = g ∨
      ∃ column row v, (stateAfter put.run (s, g)).2 = g.set column row v := by
  simp only [stateAfter, run]
  rcases s.values with _ | ⟨y, _ | ⟨x, _ | ⟨v, rest⟩⟩⟩
  · exact Or.inl rfl
  · exact Or.inl rfl
  · exact Or.inl rfl
  · simp only
    cases hw : g.write x y v with
    | ok g' =>
        obtain ⟨column, row, rfl⟩ := Grid.exists_set_of_write hw
        exact Or.inr ⟨column, row, v, rfl⟩
    | error f => exact Or.inl rfl

end GridCommand

namespace Machine

variable {κ : Type}

lemma stateAfter_onStack {α : Type} (act : StackM α) (m : Machine κ) :
    stateAfter (onStack act) m = { m with stack := stateAfter act m.stack } := by
  simp only [stateAfter, onStack]
  cases act m.stack <;> rfl

lemma stateAfter_onGrid {α : Type} (act : EStateM Fault (Stack × Grid) α) (m : Machine κ) :
    stateAfter (onGrid act) m =
      { m with
        stack := (stateAfter act (m.stack, m.grid)).1
        grid := (stateAfter act (m.stack, m.grid)).2 } := by
  simp only [stateAfter, onGrid]
  cases act (m.stack, m.grid) <;> rfl

/-! ## Properties that survive an instruction -/

/-- The kinds of change that an instruction can make to a machine. -/
inductive Change where
  /-- Other values on the stack in use. -/
  | values
  /-- Another stack, with other registers or other frames set aside. -/
  | stack
  /-- Another heading of the pointer, and another compass. -/
  | turn
  /-- One step of the pointer. -/
  | advance
  /-- A jump of the pointer. -/
  | jump
  /-- Another value in one place of the grid. -/
  | set
  /-- Another input. -/
  | input
  /-- One more emission. -/
  | emit
  /-- Another phase. -/
  | phase
deriving DecidableEq

/-- The changes that an instruction makes, if it makes any. -/
def changes : Instruction → List Change
  | .literal _ | .arithmetic _ | .grid .get => [.values]
  | .stack command => if command.handlesFrames then [.stack] else [.values]
  | .mirror _ => [.turn]
  | .skip => [.advance]
  | .skipIfZero => [.values, .advance]
  | .grid .put => [.values, .set]
  | .jump => [.values, .jump]
  | .string _ | .halt => [.phase]
  | .printChar | .printNumber => [.values, .emit]
  | .input => [.values, .input]
  | .idle => []

/-- The instructions that make changes of a kind.  Values are changed by most. -/
def Change.MadeBy (i : Instruction) : Change → Prop
  | .values => True
  | .stack => ∃ command, i = .stack command ∧ command.handlesFrames = true
  | .turn => ∃ mirror, i = .mirror mirror
  | .advance => i = .skip ∨ i = .skipIfZero
  | .jump => i = .jump
  | .set => i = .grid .put
  | .input => i = .input
  | .emit => i = .printChar ∨ i = .printNumber
  | .phase => (∃ quote, i = .string quote) ∨ i = .halt

lemma madeBy_of_mem_changes {i : Instruction} {c : Change} (h : c ∈ changes i) : c.MadeBy i := by
  cases i with
  | stack command =>
      cases hframes : command.handlesFrames with
      | true =>
          obtain rfl : c = .stack := by simpa [changes, hframes] using h
          exact ⟨command, rfl, hframes⟩
      | false =>
          obtain rfl : c = .values := by simpa [changes, hframes] using h
          trivial
  | grid command =>
      cases command <;> cases c <;> simp [changes, Change.MadeBy] at h ⊢
  | _ => cases c <;> simp [changes, Change.MadeBy] at h ⊢

/-- The property survives every change of a kind. -/
def Survives (P : Machine κ → Prop) : Change → Prop
  | .values => ∀ m values, P m → P { m with stack := m.stack.withValues values }
  | .stack => ∀ m s, P m → P { m with stack := s }
  | .turn => ∀ m h c, P m → P { m with pointer := { m.pointer with heading := h }, compass := c }
  | .advance => ∀ m, P m → P m.advance
  | .jump => ∀ m x y p, m.pointer.jump x y m.grid.width m.grid.height = .ok p → P m →
      P { m with pointer := p }
  | .set => ∀ m column row v, P m → P { m with grid := m.grid.set column row v }
  | .input => ∀ m q, P m → P { m with input := q }
  | .emit => ∀ m e, P m → P (m.emit e)
  | .phase => ∀ m ph, ph ≠ .failed → P m → P { m with phase := ph }

section Survives

variable {P : Machine κ → Prop}

lemma keeps_onStack (h : Survives P .stack) {α : Type} (act : StackM α) :
    Keeps P (onStack act : MachineM κ α) := by
  intro m hm
  rw [stateAfter_onStack]
  exact h m _ hm

/-- An action that changes values only needs less of a property to survive. -/
lemma keeps_onValues (h : Survives P .values) {α : Type} {act : StackM α}
    (hact : ∀ s, Keeps (Stack.SameFrames s) act) : Keeps P (onStack act : MachineM κ α) := by
  intro m hm
  obtain ⟨values, hvalues⟩ := hact m.stack m.stack (.refl _)
  rw [stateAfter_onStack, hvalues]
  exact h m values hm

lemma keeps_get (h : Survives P .values) :
    Keeps P (onGrid GridCommand.get.run : MachineM κ Unit) := by
  intro m hm
  obtain ⟨values, hvalues⟩ := Stack.sameFrames_grid .get m.stack m.grid
  rw [stateAfter_onGrid, GridCommand.grid_after_get, hvalues]
  exact h m values hm

lemma keeps_put (h : Survives P .values) (hset : Survives P .set) :
    Keeps P (onGrid GridCommand.put.run : MachineM κ Unit) := by
  intro m hm
  obtain ⟨values, hvalues⟩ := Stack.sameFrames_grid .put m.stack m.grid
  rw [stateAfter_onGrid, hvalues]
  obtain hsame | ⟨column, row, v, hwritten⟩ := GridCommand.grid_after_put m.stack m.grid
  · rw [hsame]
    exact h m values hm
  · rw [hwritten]
    exact h _ values (hset m column row v hm)

lemma keeps_jump (h : Survives P .jump) (x y : Float) :
    Keeps P (jump x y : MachineM κ Unit) := by
  intro m hm
  unfold stateAfter jump
  cases hj : m.pointer.jump x y m.grid.width m.grid.height with
  | ok p => exact h m x y p hj hm
  | error f => exact hm

lemma keeps_readInput (h : Survives P .input) : Keeps P (readInput : MachineM κ Float) := by
  intro m hm
  unfold stateAfter readInput
  cases m.input.read with
  | ok taken => exact h m _ hm
  | error f => exact hm

variable [Compass κ]

/-- What survives the changes of an instruction survives the instruction. -/
lemma keeps_execute {i : Instruction} (h : ∀ c ∈ changes i, Survives P c) :
    Keeps P (execute i : MachineM κ Unit) := by
  cases i with
  | literal v =>
      exact keeps_onValues (h .values (by simp [changes])) fun s => Stack.keeps_sameFrames_push s v
  | mirror mirror => exact keeps_modify fun m hm => h .turn (by simp [changes]) m _ _ hm
  | skip => exact keeps_modify (h .advance (by simp [changes]))
  | skipIfZero =>
      refine (keeps_onValues (h .values (by simp [changes])) Stack.keeps_sameFrames_pop).bind
        fun v => ?_
      split_ifs
      · exact keeps_modify (h .advance (by simp [changes]))
      · exact keeps_pure P _
  | arithmetic op =>
      exact keeps_onValues (h .values (by simp [changes]))
        fun s => Stack.keeps_sameFrames_compute s op
  | stack command =>
      cases hframes : command.handlesFrames with
      | true => exact keeps_onStack (h .stack (by simp [changes, hframes])) command.run
      | false =>
          exact keeps_onValues (h .values (by simp [changes, hframes]))
            fun s => Stack.keeps_sameFrames_run s hframes
  | grid command =>
      cases command with
      | get => exact keeps_get (h .values (by simp [changes]))
      | put => exact keeps_put (h .values (by simp [changes])) (h .set (by simp [changes]))
  | jump =>
      refine (keeps_onValues (h .values (by simp [changes])) Stack.keeps_sameFrames_popTwo).bind
        fun ⟨y, x⟩ => ?_
      exact keeps_jump (h .jump (by simp [changes])) x y
  | string quote =>
      exact keeps_modify fun m hm => h .phase (by simp [changes]) m _ Phase.noConfusion hm
  | printChar =>
      refine (keeps_onValues (h .values (by simp [changes])) Stack.keeps_sameFrames_pop).bind
        fun v => ?_
      cases Number.char? v with
      | some c => exact keeps_modify fun m hm => h .emit (by simp [changes]) m _ hm
      | none => exact keeps_throw P _
  | printNumber =>
      refine (keeps_onValues (h .values (by simp [changes])) Stack.keeps_sameFrames_pop).bind
        fun v => ?_
      exact keeps_modify fun m hm => h .emit (by simp [changes]) m _ hm
  | input =>
      refine (keeps_readInput (h .input (by simp [changes]))).bind fun v => ?_
      exact keeps_onValues (h .values (by simp [changes]))
        fun s => Stack.keeps_sameFrames_push s v
  | halt => exact keeps_modify fun m hm => h .phase (by simp [changes]) m _ Phase.noConfusion hm
  | idle => exact keeps_pure P _

end Survives

/-- The second machine is the first one after some changes of the given kinds: what none of them
changes is as it was.  The source, the fault on record and the sizes of the grid always are. -/
structure Untouched (kinds : List Change) (m n : Machine κ) : Prop where
  source : n.source = m.source
  fault : n.fault? = m.fault?
  width : n.grid.width = m.grid.width
  height : n.grid.height = m.grid.height
  grid : .set ∉ kinds → n.grid = m.grid
  frames : .stack ∉ kinds → m.stack.SameFrames n.stack
  heading : .turn ∉ kinds → n.pointer.heading = m.pointer.heading
  compass : .turn ∉ kinds → n.compass = m.compass
  input : .input ∉ kinds → n.input = m.input
  output : .emit ∉ kinds → n.output = m.output
  phase : .phase ∉ kinds → n.phase = m.phase

lemma Untouched.refl (kinds : List Change) (m : Machine κ) : Untouched kinds m m where
  source := rfl
  fault := rfl
  width := rfl
  height := rfl
  grid _ := rfl
  frames _ := .refl _
  heading _ := rfl
  compass _ := rfl
  input _ := rfl
  output _ := rfl
  phase _ := rfl

lemma survives_untouched (m : Machine κ) {kinds : List Change} {c : Change} (hc : c ∈ kinds) :
    Survives (Untouched kinds m) c := by
  cases c with
  | values =>
      intro n values hn
      refine { hn with frames := fun hstack => ?_ }
      obtain ⟨_, hframes⟩ := hn.frames hstack
      exact ⟨values, by rw [hframes]; rfl⟩
  | stack =>
      intro n s hn
      exact { hn with frames := fun hstack => absurd hc hstack }
  | turn =>
      intro n h c hn
      exact { hn with
        heading := fun hturn => absurd hc hturn
        compass := fun hturn => absurd hc hturn }
  | advance =>
      intro n hn
      exact { hn with }
  | jump =>
      intro n x y p hp hn
      obtain ⟨column, row, -, -, hp⟩ := Pointer.jump_eq_ok hp
      have hheading : p.heading = n.pointer.heading := by rw [hp]
      exact { hn with heading := fun hturn => hheading.trans (hn.heading hturn) }
  | set =>
      intro n column row v hn
      exact { hn with
        width := (Grid.width_set _ _ _ _).trans hn.width
        height := (Grid.height_set _ _ _ _).trans hn.height
        grid := fun hset => absurd hc hset }
  | input =>
      intro n q hn
      exact { hn with input := fun hinput => absurd hc hinput }
  | emit =>
      intro n e hn
      exact { hn with output := fun hemit => absurd hc hemit }
  | phase =>
      intro n ph _ hn
      exact { hn with phase := fun hphase => absurd hc hphase }

/-- **An instruction leaves alone what it does not change.** -/
lemma untouched_execute [Compass κ] (i : Instruction) (m : Machine κ) :
    Untouched (changes i) m (stateAfter (execute i) m) :=
  keeps_execute (fun _ hc => survives_untouched m hc) m (.refl _ m)

/-! ## Properties that survive every instruction -/

/-- A property that survives all changes. -/
structure Stable (P : Machine κ → Prop) : Prop where
  stack : ∀ m s, P m → P { m with stack := s }
  turn : ∀ m h c, P m → P { m with pointer := { m.pointer with heading := h }, compass := c }
  advance : ∀ m, P m → P m.advance
  jump : ∀ m x y p, m.pointer.jump x y m.grid.width m.grid.height = .ok p → P m →
    P { m with pointer := p }
  set : ∀ m column row v, P m → P { m with grid := m.grid.set column row v }
  input : ∀ m q, P m → P { m with input := q }
  emit : ∀ m e, P m → P (m.emit e)
  phase : ∀ m ph, ph ≠ .failed → P m → P { m with phase := ph }

namespace Stable

variable {P : Machine κ → Prop}

lemma survives (h : Stable P) (c : Change) : Survives P c := by
  cases c with
  | values => exact fun m values hm => h.stack m _ hm
  | stack => exact h.stack
  | turn => exact h.turn
  | advance => exact h.advance
  | jump => exact h.jump
  | set => exact h.set
  | input => exact h.input
  | emit => exact h.emit
  | phase => exact h.phase

variable [Compass κ]

lemma execute (h : Stable P) (i : Instruction) : Keeps P (Machine.execute i : MachineM κ Unit) :=
  keeps_execute fun c _ => h.survives c

lemma visit (h : Stable P) (cell : Float) : Keeps P (Machine.visit cell : MachineM κ Unit) := by
  intro m hm
  unfold stateAfter Machine.visit
  cases hphase : m.phase with
  | reading quote =>
      simp only
      split_ifs
      · exact h.phase m _ Phase.noConfusion hm
      · exact keeps_onStack h.stack (Stack.push cell) m hm
  | _ =>
      simp only
      cases Instruction.ofCell cell with
      | ok i => exact h.execute i m hm
      | error f => exact hm

lemma of_visit (h : Stable P) {cell : Float} {m m' : Machine κ} (hm : P m)
    (hv : Machine.visit cell m = .ok () m') : P m' := by
  have hvisit := h.visit cell m hm
  rwa [stateAfter_of_ok hv] at hvisit

end Stable

/-! ## Steps -/

/-- The machine whose step counter has been raised and whose pointer stands on the next cell: the
state in which a step looks at its cell. -/
def arrived (m : Machine κ) : Machine κ := advance { m with steps := m.steps + 1 }

/-- The fault of a machine whose pointer stands on no cell. -/
def lost (m : Machine κ) : Fault :=
  .outside (Number.ofInt m.pointer.x) (Number.ofInt m.pointer.y)

variable [Compass κ]

lemma step_of_terminated {m : Machine κ} (h : m.hasTerminated = true) :
    m.step = .error .alreadyTerminated := by
  rw [step, if_pos h]

/-- A step arrives at the next cell and deals with it, or finds none. -/
lemma step_eq {m : Machine κ} (h : m.hasTerminated = false) :
    m.step =
      match m.arrived.cell? with
      | none => .ok (m.arrived.fail m.arrived.lost)
      | some cell =>
          match visit cell m.arrived with
          | .ok _ m' => .ok m'
          | .error f m' => .ok (m'.fail f) := by
  unfold step visitNext
  rw [if_neg (by simp [h])]
  simp only [arrived]
  cases (advance { m with steps := m.steps + 1 }).cell? with
  | none => rfl
  | some cell => rfl

/-- The three ways in which a step is made: there is no cell, the visit of the cell succeeds, or
the visit ends with a fault, and the machine with it. -/
lemma step_cases {m m' : Machine κ} (h : m.step = .ok m') :
    m.hasTerminated = false ∧
      (m.arrived.cell? = none ∧ m' = m.arrived.fail m.arrived.lost ∨
        ∃ cell, m.arrived.cell? = some cell ∧
          (visit cell m.arrived = .ok () m' ∨
            ∃ f m₁, visit cell m.arrived = .error f m₁ ∧ m' = m₁.fail f)) := by
  have hend : m.hasTerminated = false := by
    by_contra hne
    rw [step_of_terminated (by simpa using hne)] at h
    cases h
  refine ⟨hend, ?_⟩
  rw [step_eq hend] at h
  cases hcell : m.arrived.cell? with
  | none =>
      rw [hcell] at h
      cases h
      exact Or.inl ⟨rfl, rfl⟩
  | some cell =>
      simp only [hcell] at h
      refine Or.inr ⟨cell, rfl, ?_⟩
      cases hv : visit cell m.arrived with
      | ok a m₁ =>
          rw [hv] at h
          cases h
          exact Or.inl rfl
      | error f m₁ =>
          rw [hv] at h
          cases h
          exact Or.inr ⟨f, m₁, rfl, rfl⟩

/-- A machine that has not ended always makes a step. -/
lemma exists_step {m : Machine κ} (h : m.hasTerminated = false) : ∃ m', m.step = .ok m' := by
  rw [step_eq h]
  cases m.arrived.cell? with
  | none => exact ⟨_, rfl⟩
  | some cell =>
      simp only
      cases visit cell m.arrived with
      | ok a m₁ => exact ⟨_, rfl⟩
      | error f m₁ => exact ⟨_, rfl⟩

/-- A stable property that holds on arrival at the next cell, and that a fault does not destroy,
holds after the step. -/
lemma Stable.step {P : Machine κ → Prop} (h : Stable P)
    (hfail : ∀ m f, P m → P (m.fail f)) {m m' : Machine κ}
    (hstep : m.step = .ok m') (hm : P m.arrived) : P m' := by
  obtain ⟨-, ⟨-, rfl⟩ | ⟨cell, -, hv | ⟨f, m₁, hv, rfl⟩⟩⟩ := step_cases hstep
  · exact hfail _ _ hm
  · exact h.of_visit hm hv
  · have hvisit := h.visit cell m.arrived hm
    rw [stateAfter_of_error hv] at hvisit
    exact hfail _ _ hvisit

/-- Every step is counted once. -/
lemma steps_of_step {m m' : Machine κ} (h : m.step = .ok m') : m'.steps = m.steps + 1 := by
  have hstable : Stable fun n : Machine κ => n.steps = m.steps + 1 :=
    ⟨fun _ _ hm => hm, fun _ _ _ hm => hm, fun _ hm => hm, fun _ _ _ _ _ hm => hm,
      fun _ _ _ _ hm => hm, fun _ _ hm => hm, fun _ _ hm => hm, fun _ _ _ hm => hm⟩
  exact hstable.step (fun _ _ hm => hm) h rfl

/-- A visit that succeeds puts no fault on record. -/
lemma fault?_of_visit {cell : Float} {m m' : Machine κ} (h : visit cell m = .ok () m') :
    m'.fault? = m.fault? := by
  have hstable : Stable fun n : Machine κ => n.fault? = m.fault? :=
    ⟨fun _ _ hm => hm, fun _ _ _ hm => hm, fun _ hm => hm, fun _ _ _ _ _ hm => hm,
      fun _ _ _ _ hm => hm, fun _ _ hm => hm, fun _ _ hm => hm, fun _ _ _ hm => hm⟩
  exact hstable.of_visit rfl h

/-- A visit that succeeds is not the failure of a machine. -/
lemma not_failed_of_visit {cell : Float} {m m' : Machine κ} (hm : m.phase ≠ .failed)
    (h : visit cell m = .ok () m') : m'.phase ≠ .failed := by
  have hstable : Stable fun n : Machine κ => n.phase ≠ .failed :=
    ⟨fun _ _ hm => hm, fun _ _ _ hm => hm, fun _ hm => hm, fun _ _ _ _ _ hm => hm,
      fun _ _ _ _ hm => hm, fun _ _ hm => hm, fun _ _ hm => hm, fun _ _ hph _ => hph⟩
  exact hstable.of_visit hm h

end Machine

/-! ## Decoding -/

namespace Instruction

/-- A cell with an instruction holds a character that stands for it. -/
lemma ofCell_eq_ok {cell : Float} {i : Instruction} (h : ofCell cell = .ok i) :
    ∃ c, Number.char? cell = some c ∧ ofChar? c = some i := by
  unfold ofCell ofChar at h
  split at h
  · rename_i c hc
    split at h
    · rename_i i' hi
      cases h
      exact ⟨c, hc, hi⟩
    · cases h
  · cases h

/-- The character of a jump. -/
lemma char?_of_ofCell_jump {cell : Float} (h : ofCell cell = .ok .jump) :
    Number.char? cell = some '.' := by
  obtain ⟨c, hc, hi⟩ := ofCell_eq_ok h
  simp only [ofChar?, Option.orElse_eq_some, Option.map_eq_some_iff, reduceCtorEq, and_false,
    exists_false, false_or] at hi
  obtain ⟨-, -, -, -, -, hsingle⟩ := hi
  unfold single? at hsingle
  split at hsingle <;> cases hsingle
  exact hc

/-- The character of a write. -/
lemma char?_of_ofCell_put {cell : Float} (h : ofCell cell = .ok (.grid .put)) :
    Number.char? cell = some 'p' := by
  obtain ⟨c, hc, hi⟩ := ofCell_eq_ok h
  simp only [ofChar?, Option.orElse_eq_some, Option.map_eq_some_iff, reduceCtorEq, and_false,
    exists_false, false_or] at hi
  obtain ⟨-, -, -, -, ⟨command, hcommand, hput⟩ | ⟨-, hsingle⟩⟩ := hi
  · cases hput
    unfold GridCommand.ofChar? at hcommand
    split at hcommand <;> cases hcommand
    exact hc
  · unfold single? at hsingle
    split at hsingle <;> cases hsingle

end Instruction

/-! ## Faults -/

namespace Fault

/-- The faults of stack instructions and operators. -/
def IsOfStack : Fault → Prop
  | .underflow _ _ | .divisionByZero | .badSubstackSize _ => True
  | _ => False

/-- Not the fault of naming a place outside the grid. -/
def IsNotOutside (f : Fault) : Prop := ∀ x y, f ≠ .outside x y

lemma IsOfStack.isNotOutside {f : Fault} (h : f.IsOfStack) : f.IsNotOutside := by
  rintro x y rfl
  exact h

end Fault

namespace Stack

lemma raises_shortOf {α : Type} (n : Nat) : Raises Fault.IsOfStack (shortOf n : StackM α) := by
  intro s e s' h
  cases h
  trivial

lemma raises_push (v : Float) : Raises Fault.IsOfStack (push v) := by
  intro s e s' h
  cases h

lemma raises_pop : Raises Fault.IsOfStack pop := by
  intro s e s' h
  unfold pop at h
  split at h
  · cases h
  · exact raises_shortOf 1 s e s' h

lemma raises_popTwo : Raises Fault.IsOfStack popTwo := by
  intro s e s' h
  unfold popTwo at h
  split at h
  · cases h
  · exact raises_shortOf 2 s e s' h

lemma raises_splitOff (n : Nat) : Raises Fault.IsOfStack (splitOff n) := by
  intro s e s' h
  unfold splitOff at h
  split_ifs at h
  exact raises_shortOf n s e s' h

lemma raises_compute (op : Operator) : Raises Fault.IsOfStack (compute op) := by
  refine raises_popTwo.bind fun ⟨x, y⟩ => ?_
  simp only
  cases hop : op.eval y x with
  | ok v => exact raises_push v
  | error f =>
      refine raises_throw ?_
      cases op <;> simp only [Operator.eval] at hop
      case div | mod =>
        split_ifs at hop
        cases hop
        trivial
      all_goals cases hop

end Stack

lemma StackCommand.raises_run (command : StackCommand) : Raises Fault.IsOfStack command.run := by
  cases command with
  | duplicate =>
      exact Stack.raises_pop.bind fun v => (Stack.raises_push v).bind fun _ => Stack.raises_push v
  | drop => exact Stack.raises_pop.bind fun _ => raises_pure _ _
  | openFrame =>
      refine Stack.raises_pop.bind fun count => ?_
      cases Number.index? count with
      | some n => exact Stack.raises_splitOff n
      | none => exact raises_throw trivial
  | swap | rotate | shiftRight | shiftLeft =>
      intro s e s' h
      simp only [StackCommand.run, Stack.swap, Stack.rotate, Stack.shiftRight, Stack.shiftLeft] at h
      split at h
      · cases h
      · exact Stack.raises_shortOf _ s e s' h
  | reverse | length =>
      intro s e s' h
      cases h
  | closeFrame =>
      intro s e s' h
      simp only [StackCommand.run, Stack.closeFrame] at h
      split at h <;> cases h
  | register =>
      intro s e s' h
      simp only [StackCommand.run, Stack.exchangeRegister] at h
      split at h
      · cases h
      · split at h
        · cases h
        · exact Stack.raises_shortOf 1 s e s' h

namespace Machine

variable {κ : Type}

lemma raises_onStack {F : Fault → Prop} {α : Type} {act : StackM α} (h : Raises F act) :
    Raises F (onStack act : MachineM κ α) := by
  intro m e m' he
  unfold onStack at he
  cases hact : act m.stack with
  | ok a s =>
      rw [hact] at he
      cases he
  | error f s =>
      rw [hact] at he
      cases he
      exact h _ _ _ hact

variable [Compass κ]

/-- Only a jump and a write can name a place outside the grid. -/
lemma raises_execute {i : Instruction} (hjump : i ≠ .jump) (hput : i ≠ .grid .put) :
    Raises Fault.IsNotOutside (execute i : MachineM κ Unit) := by
  have hstack : ∀ {α : Type} {act : StackM α}, Raises Fault.IsOfStack act →
      Raises Fault.IsNotOutside (onStack act : MachineM κ α) :=
    fun h => (raises_onStack h).mono fun _ hf => hf.isNotOutside
  cases i with
  | literal v => exact hstack (Stack.raises_push v)
  | skipIfZero =>
      refine (hstack Stack.raises_pop).bind fun v => ?_
      split_ifs
      · exact raises_modify _ _
      · exact raises_pure _ _
  | arithmetic op => exact hstack (Stack.raises_compute op)
  | stack command => exact hstack command.raises_run
  | grid command =>
      cases command with
      | put => exact absurd rfl hput
      | get =>
          intro m e m' h
          simp only [execute, onGrid, GridCommand.run] at h
          rcases hv : m.stack.values with _ | ⟨y, _ | ⟨x, rest⟩⟩ <;> rw [hv] at h <;> cases h <;>
            exact fun _ _ => Fault.noConfusion
  | jump => exact absurd rfl hjump
  | printChar =>
      refine (hstack Stack.raises_pop).bind fun v => ?_
      cases Number.char? v with
      | some c => exact raises_modify _ _
      | none => exact raises_throw fun _ _ => Fault.noConfusion
  | printNumber => exact (hstack Stack.raises_pop).bind fun v => raises_modify _ _
  | input =>
      refine Raises.bind ?_ fun v => hstack (Stack.raises_push v)
      intro m e m' h
      unfold readInput at h
      split at h <;> cases h
  | mirror _ | skip | string _ | halt => exact raises_modify _ _
  | idle => exact raises_pure _ _

/-- A cell whose visit ends outside the grid was executed, and it holds a jump or a write. -/
lemma visit_outside {cell x y : Float} {m m' : Machine κ}
    (h : visit cell m = .error (.outside x y) m') :
    (∀ quote, m.phase ≠ .reading quote) ∧
      (Instruction.ofCell cell = .ok .jump ∨ Instruction.ofCell cell = .ok (.grid .put)) := by
  unfold visit at h
  split at h
  · split_ifs at h
    exact absurd rfl (raises_onStack (Stack.raises_push cell) _ _ _ h |>.isNotOutside x y)
  · rename_i hphase
    refine ⟨hphase, ?_⟩
    cases hi : Instruction.ofCell cell with
    | ok i =>
        rw [hi] at h
        by_cases hjump : i = .jump
        · exact Or.inl (by rw [hjump])
        · by_cases hput : i = .grid .put
          · exact Or.inr (by rw [hput])
          · exact absurd rfl (raises_execute hjump hput _ _ _ h x y)
    | error f =>
        rw [hi] at h
        cases h
        unfold Instruction.ofCell Instruction.ofChar at hi
        split at hi
        · split at hi <;> cases hi
        · cases hi

end Machine

end Aquarium
