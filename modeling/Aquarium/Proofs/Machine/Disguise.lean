import Aquarium.Proofs.Machine.Bounds

/-!
# Machines in disguise

Two machines can differ in parts that the next instruction does not look at.  Then they make the
same step, and differ in the same way afterwards.  The difference is a *disguise*: a map of the
stack, of the two queues and of the compass, and of the source, which no instruction looks at.  All
that a machine is made of besides, its grid, its pointer, its phase and its step counter, shows
through.

An instruction sees a disguise with its first look only, when it takes its operands, draws from
the compass or reads the input.  `Hides` says of every instruction what its first look must not
find.  What comes after that is a change of the pointer, a push, an emission or a change of the
phase, and goes with every disguise.  So a disguise that hides from an instruction passes through
its execution (`execute_apply`) and through the step that executes it (`step_apply`).
-/

namespace Aquarium

/-- Another stack, other queues and another compass for a machine, and possibly another source.
Whatever the disguise does to a stack and to an output, it goes with a push and with an
emission. -/
structure Disguise (κ κ' : Type) where
  source : String → String := id
  stack : Stack → Stack
  input : Queue Char → Queue Char
  output : Queue Emission → Queue Emission
  compass : κ → κ'
  stack_push : ∀ s v,
    (stack s).withValues (v :: (stack s).values) = stack (s.withValues (v :: s.values))
  output_write : ∀ q e, (output q).write e = output (q.write e)

namespace Disguise

variable {κ κ' : Type} (d : Disguise κ κ')

/-! A stack or an output that is not disguised goes with everything. -/

lemma stack_push_id (s : Stack) (v : Float) :
    (id s).withValues (v :: (id s).values) = id (s.withValues (v :: s.values)) := rfl

lemma output_write_id (q : Queue Emission) (e : Emission) : (id q).write e = id (q.write e) := rfl

/-- The machine in disguise. -/
def apply (m : Machine κ) : Machine κ' :=
  { m with
    source := d.source m.source
    stack := d.stack m.stack
    input := d.input m.input
    output := d.output m.output
    compass := d.compass m.compass }

/-! ## Single actions -/

lemma onStack_apply {α : Type} {act : StackM α} {m : Machine κ}
    (h : act (d.stack m.stack) = mapState d.stack (act m.stack)) :
    Machine.onStack act (d.apply m) = mapState d.apply (Machine.onStack act m) := by
  have hstack : (d.apply m).stack = d.stack m.stack := rfl
  simp only [Machine.onStack, hstack, h]
  cases act m.stack <;> rfl

lemma follows_push (v : Float) :
    Follows d.apply (Machine.onStack (Stack.push v)) (Machine.onStack (Stack.push v)) := by
  intro m
  refine d.onStack_apply ?_
  simp only [Stack.push, mapState, d.stack_push]

lemma onGrid_apply {α : Type} {act : EStateM Fault (Stack × Grid) α} {m : Machine κ}
    (h : act (d.stack m.stack, m.grid) = mapState (Prod.map d.stack id) (act (m.stack, m.grid))) :
    Machine.onGrid act (d.apply m) = mapState d.apply (Machine.onGrid act m) := by
  have hparts : ((d.apply m).stack, (d.apply m).grid) = (d.stack m.stack, m.grid) := rfl
  simp only [Machine.onGrid, hparts, h]
  cases act (m.stack, m.grid) <;> rfl

lemma follows_jump (x y : Float) :
    Follows d.apply (Machine.jump x y) (Machine.jump x y) := by
  intro m
  have hparts : (d.apply m).pointer = m.pointer ∧ (d.apply m).grid = m.grid := ⟨rfl, rfl⟩
  simp only [Machine.jump, hparts]
  cases m.pointer.jump x y m.grid.width m.grid.height <;> rfl

lemma emit_apply (e : Emission) (m : Machine κ) : (d.apply m).emit e = d.apply (m.emit e) := by
  simp only [Machine.emit, apply, d.output_write]

lemma readInput_apply {m : Machine κ}
    (h : (d.input m.input).read = m.input.read.map (Prod.map id d.input)) :
    Machine.readInput (d.apply m) = mapState d.apply (Machine.readInput m) := by
  have hinput : (d.apply m).input = d.input m.input := rfl
  rw [Machine.readInput, Machine.readInput, hinput, h]
  cases m.input.read <;> rfl

/-! ## Instructions -/

/-- The first look of an instruction does not find out the disguise: its operands, the heading it
draws or the character it reads are the same, and taking them goes with the disguise. -/
def Hides (m : Machine κ) [Compass κ] [Compass κ'] : Instruction → Prop
  | .mirror mirror =>
      mirror.turn m.pointer.heading (d.compass m.compass) =
        Prod.map id d.compass (mirror.turn m.pointer.heading m.compass)
  | .skipIfZero | .printChar | .printNumber =>
      Stack.pop (d.stack m.stack) = mapState d.stack (Stack.pop m.stack)
  | .jump => Stack.popTwo (d.stack m.stack) = mapState d.stack (Stack.popTwo m.stack)
  | .arithmetic op =>
      Stack.compute op (d.stack m.stack) = mapState d.stack (Stack.compute op m.stack)
  | .stack command => command.run (d.stack m.stack) = mapState d.stack (command.run m.stack)
  | .grid command =>
      command.run (d.stack m.stack, m.grid) =
        mapState (Prod.map d.stack id) (command.run (m.stack, m.grid))
  | .input => (d.input m.input).read = m.input.read.map (Prod.map id d.input)
  | .literal _ | .skip | .string _ | .halt | .idle => True

variable [Compass κ] [Compass κ']

/-- An input that is not disguised is read as it is. -/
lemma hides_input (hinput : d.input = id) (m : Machine κ) : d.Hides m .input := by
  show (d.input m.input).read = m.input.read.map (Prod.map id d.input)
  rw [hinput, id_eq]
  cases m.input.read <;> rfl

/-- A disguise that leaves the stack alone can be found out by a mirror or by reading only. -/
lemma hides_of_stack_eq_id (hstack : d.stack = id) {m : Machine κ} {i : Instruction}
    (hmirror : ∀ mirror, i = .mirror mirror → d.Hides m i)
    (hinput : i = .input → d.Hides m i) : d.Hides m i := by
  cases i with
  | mirror mirror => exact hmirror mirror rfl
  | input => exact hinput rfl
  | literal | skip | string | halt | idle => trivial
  | skipIfZero | printChar | printNumber | jump | arithmetic | stack | grid =>
      simp [Hides, hstack]

/-- A disguise that hides from an instruction passes through its execution. -/
lemma execute_apply {i : Instruction} {m : Machine κ} (h : d.Hides m i) :
    Machine.execute i (d.apply m) = mapState d.apply (Machine.execute i m) := by
  cases i with
  | literal v => exact d.follows_push v m
  | mirror mirror =>
      have hturn : mirror.turn m.pointer.heading (d.compass m.compass) =
          Prod.map id d.compass (mirror.turn m.pointer.heading m.compass) := h
      have hreflect : (d.apply m).reflect mirror = d.apply (m.reflect mirror) := by
        simp only [Machine.reflect, apply, hturn, Prod.map_fst, Prod.map_snd, id_eq]
      show EStateM.Result.ok () _ = EStateM.Result.ok () _
      rw [hreflect]
  | skip | string quote | halt | idle => rfl
  | skipIfZero =>
      refine bind_eq_mapState (d.onStack_apply h) fun v => ?_
      split_ifs
      · exact follows_modify fun _ => rfl
      · exact follows_pure _ _
  | arithmetic op => exact d.onStack_apply h
  | stack command => exact d.onStack_apply h
  | grid command => exact d.onGrid_apply h
  | jump => exact bind_eq_mapState (d.onStack_apply h) fun ⟨y, x⟩ => d.follows_jump x y
  | printChar =>
      refine bind_eq_mapState (d.onStack_apply h) fun v => ?_
      cases Number.char? v with
      | some c => exact follows_modify (d.emit_apply _)
      | none => exact follows_throw _ _
  | printNumber =>
      exact bind_eq_mapState (d.onStack_apply h) fun v => follows_modify (d.emit_apply _)
  | input => exact bind_eq_mapState (d.readInput_apply h) d.follows_push

/-- A disguise passes through the visit of a cell.  A cell of a string literal sees none. -/
lemma visit_apply {cell : Float} {m : Machine κ}
    (h : (∀ quote, m.phase ≠ .reading quote) → ∀ i, Instruction.ofCell cell = .ok i →
      d.Hides m i) :
    Machine.visit cell (d.apply m) = mapState d.apply (Machine.visit cell m) := by
  have hphase : (d.apply m).phase = m.phase := rfl
  simp only [Machine.visit, hphase]
  split
  · split_ifs
    · rfl
    · exact d.follows_push cell m
  · rename_i hreading
    cases hi : Instruction.ofCell cell with
    | ok i => exact d.execute_apply (h hreading i hi)
    | error f => rfl

/-- **A step in disguise.**  A disguise that hides from the instruction that a machine executes
next passes through the step. -/
theorem step_apply {m : Machine κ}
    (h : ∀ c i, m.symbol? = some c → Instruction.ofChar? c = some i → d.Hides m i) :
    (d.apply m).step = m.step.map d.apply := by
  cases hend : m.hasTerminated with
  | true =>
      rw [Machine.step_of_terminated hend, Machine.step_of_terminated (m := d.apply m) hend]
      rfl
  | false =>
      have harrived : (d.apply m).arrived = d.apply m.arrived := rfl
      have hcell : (d.apply m.arrived).cell? = m.arrived.cell? := rfl
      rw [Machine.step_eq hend, Machine.step_eq (m := d.apply m) hend, harrived, hcell]
      cases hm : m.arrived.cell? with
      | none => rfl
      | some cell =>
          have hvisit : Machine.visit cell (d.apply m.arrived) =
              mapState d.apply (Machine.visit cell m.arrived) := by
            refine d.visit_apply fun hreading i hi => ?_
            obtain ⟨c, hc, hchar⟩ := Instruction.ofCell_eq_ok hi
            have hphase : m.phase = .running :=
              (Machine.running_or_reading hend).resolve_right fun ⟨quote, hq⟩ => hreading quote hq
            exact h c i (Machine.executes_iff.mp ⟨hphase, cell, hm, hc⟩) hchar
          simp only [hvisit]
          cases Machine.visit cell m.arrived <;> rfl

/-- The same for the step that a host asks for, which an ended machine refuses. -/
lemma apply_step_apply {m : Machine κ}
    (h : ∀ c i, m.symbol? = some c → Instruction.ofChar? c = some i → d.Hides m i) :
    HostCall.step.apply (d.apply m) = d.apply (HostCall.step.apply m) := by
  simp only [HostCall.apply, d.step_apply h]
  cases m.step <;> rfl

end Disguise

end Aquarium
