import Aquarium.Proofs.Machine.Traffic

/-!
# What a program can pile up

A program can fill its stacks and registers, write outside its own extent and print.  How much
of all this it can have is bounded by the steps it has made, and the bound is linear: what is on
the stacks and in the registers, three times the number of outliers and the number of emissions
never exceed what was on the stack in the beginning and the number of steps.

The proof weighs a machine (`Machine.weight`).  A value and an emission count one.  An outlier
counts three, because a write takes three values from the stack.  With these weights no instruction
adds more than one, and most of them lose something.  `Gains` keeps the account of an action: it
adds up along a sequence (`Gains.bind`), so a value that was taken off pays for what follows.
-/

namespace Aquarium

/-! ## The account of an action -/

section Gains

variable {ε σ α β : Type}

/-- The action adds at most `n` to the weight of the state if it answers, and nothing if it
faults. -/
def Gains (weight : σ → Nat) (n : Int) (act : EStateM ε σ α) : Prop := ∀ s,
  match act s with
  | .ok _ s' => (weight s' : Int) ≤ weight s + n
  | .error _ s' => weight s' ≤ weight s

variable {weight : σ → Nat} {n k : Int} {act : EStateM ε σ α}

lemma Gains.of_ok {s s' : σ} {a : α} (h : Gains weight n act) (hs : act s = .ok a s') :
    (weight s' : Int) ≤ weight s + n := by
  have hgain := h s
  rwa [hs] at hgain

lemma Gains.of_error {s s' : σ} {e : ε} (h : Gains weight n act) (hs : act s = .error e s') :
    weight s' ≤ weight s := by
  have hgain := h s
  rwa [hs] at hgain

lemma Gains.mono (h : Gains weight n act) (hnk : n ≤ k) : Gains weight k act := by
  intro s
  cases hs : act s with
  | ok a s' =>
      have hgain := h.of_ok hs
      simp only
      omega
  | error e s' => exact h.of_error hs

lemma gains_pure (a : α) : Gains weight 0 (pure a : EStateM ε σ α) := by
  intro s
  show (weight s : Int) ≤ weight s + 0
  omega

/-- An action that faults adds nothing, so any account of it is right. -/
lemma gains_throw (e : ε) : Gains weight n (throw e : EStateM ε σ α) :=
  fun s => Nat.le_refl (weight s)

lemma gains_modify {f : σ → σ} (h : ∀ s, (weight (f s) : Int) ≤ weight s + n) :
    Gains weight n (modify f : EStateM ε σ PUnit) :=
  h

/-- Accounts add up.  The first action must not add anything, so that nothing is left of it when
the second one faults. -/
lemma Gains.bind {next : α → EStateM ε σ β} (h : Gains weight n act) (hn : n ≤ 0)
    (hnext : ∀ a, Gains weight k (next a)) : Gains weight (n + k) (act >>= next) := by
  intro s
  rw [bind_apply]
  cases hs : act s with
  | error e s' => exact h.of_error hs
  | ok a s' =>
      have hfirst := h.of_ok hs
      simp only
      cases hs' : next a s' with
      | ok b s'' =>
          have hsecond := (hnext a).of_ok hs'
          simp only
          omega
      | error e s'' =>
          have hsecond := (hnext a).of_error hs'
          simp only
          omega

end Gains

/-! ## Stacks -/

/-- The number of values of a frame, on its stack and in its register. -/
def Frame.held (f : Frame) : Nat := f.values.length + f.register.toList.length

namespace Stack

/-- The number of values in the frame in use and in those set aside, registers included. -/
def held (s : Stack) : Nat := ((s.active :: s.archive).map Frame.held).sum

lemma held_eq (s : Stack) :
    s.held =
      s.values.length + s.active.register.toList.length + (s.archive.map Frame.held).sum := rfl

lemma held_ofValues (values : List Float) : (ofValues values).held = values.length := by
  simp [held_eq, ofValues, Stack.values]

/-- Other values in the frame in use count by their number. -/
lemma held_withValues (s : Stack) (values : List Float) :
    (s.withValues values).held + s.values.length = s.held + values.length := by
  simp only [held_eq, withValues, Stack.values]
  omega

lemma held_withValues_le {s : Stack} {values : List Float} {n : Int}
    (h : (values.length : Int) ≤ s.values.length + n) :
    ((s.withValues values).held : Int) ≤ s.held + n := by
  have hheld := held_withValues s values
  omega

lemma gains_push (v : Float) : Gains held 1 (push v) := by
  intro s
  exact held_withValues_le (by simp)

lemma gains_pop : Gains held (-1) pop := by
  intro s
  simp only [pop]
  cases hv : s.values with
  | nil => exact Nat.le_refl _
  | cons v rest => exact held_withValues_le (by simp [hv])

lemma gains_popTwo : Gains held (-2) popTwo := by
  intro s
  simp only [popTwo]
  rcases hv : s.values with _ | ⟨x, _ | ⟨y, rest⟩⟩
  · exact Nat.le_refl _
  · exact Nat.le_refl _
  · exact held_withValues_le (by simp only [hv, List.length_cons]; omega)

lemma gains_compute (op : Operator) : Gains held (-1) (compute op) := by
  refine gains_popTwo.bind (by decide) (k := 1) fun ⟨x, y⟩ => ?_
  simp only
  cases op.eval y x with
  | ok v => exact gains_push v
  | error f => exact gains_throw f

lemma gains_duplicate : Gains held 1 duplicate := by
  refine gains_pop.bind (by decide) (k := 2) fun v s => ?_
  -- The first push adds a value, so `Gains.bind` does not go further; neither push faults.
  show ((s.withValues (v :: v :: s.values)).held : Int) ≤ s.held + 2
  exact held_withValues_le (by simp only [List.length_cons]; omega)

/-- A new frame holds what it takes from the old one. -/
lemma gains_splitOff (n : Nat) : Gains held 0 (splitOff n) := by
  intro s
  simp only [splitOff]
  split_ifs with hshort
  · exact Nat.le_refl _
  · simp only [held_eq, Frame.held, Stack.values, List.map_cons, List.sum_cons, List.length_take,
      List.length_drop, Option.toList_none, List.length_nil]
    omega

lemma gains_openFrame : Gains held (-1) openFrame := by
  refine gains_pop.bind (by decide) (k := 0) fun count => ?_
  cases Number.index? count with
  | some n => exact gains_splitOff n
  | none => exact gains_throw _

/-- Closing a frame loses its register, and closing the outermost one loses everything. -/
lemma gains_closeFrame : Gains held 0 closeFrame := by
  intro s
  simp only [closeFrame]
  cases ha : s.archive with
  | nil =>
      have hempty : ({} : Stack).held = 0 := rfl
      simp only [hempty]
      omega
  | cons parent rest =>
      simp only [held_eq, Frame.held, Stack.values, ha, List.map_cons, List.sum_cons,
        List.length_append]
      omega

/-- A value in the register counts as much as on the stack. -/
lemma gains_exchangeRegister : Gains held 0 exchangeRegister := by
  intro s
  simp only [exchangeRegister]
  cases hr : s.active.register with
  | some v =>
      simp only [held_eq, Stack.values, hr, List.length_cons, Option.toList_some,
        Option.toList_none, List.length_nil]
      omega
  | none =>
      cases hv : s.values with
      | nil => exact Nat.le_refl _
      | cons v rest =>
          have hlength : s.active.values.length = rest.length + 1 := congrArg List.length hv
          simp only [held_eq, Stack.values, hlength, hr, List.length_cons, Option.toList_some,
            Option.toList_none, List.length_nil]
          omega

/-- **No stack instruction adds more than one value.** -/
lemma gains_run (command : StackCommand) : Gains held 1 command.run := by
  cases command with
  | duplicate => exact gains_duplicate
  | drop => exact (gains_pop.bind (by decide) fun _ => gains_pure _).mono (by decide)
  | openFrame => exact gains_openFrame.mono (by decide)
  | closeFrame => exact gains_closeFrame.mono (by decide)
  | register => exact gains_exchangeRegister.mono (by decide)
  | length =>
      intro s
      exact held_withValues_le (by simp)
  | reverse =>
      intro s
      exact held_withValues_le (by simp)
  | swap =>
      intro s
      simp only [StackCommand.run, swap]
      rcases hv : s.values with _ | ⟨x, _ | ⟨y, rest⟩⟩
      · exact Nat.le_refl _
      · exact Nat.le_refl _
      · exact held_withValues_le (by simp [hv])
  | rotate =>
      intro s
      simp only [StackCommand.run, rotate]
      rcases hv : s.values with _ | ⟨x, _ | ⟨y, _ | ⟨z, rest⟩⟩⟩
      · exact Nat.le_refl _
      · exact Nat.le_refl _
      · exact Nat.le_refl _
      · exact held_withValues_le (by simp [hv])
  | shiftRight =>
      intro s
      simp only [StackCommand.run, shiftRight]
      cases hv : s.values with
      | nil => exact Nat.le_refl _
      | cons x rest => exact held_withValues_le (by simp [hv])
  | shiftLeft =>
      intro s
      simp only [StackCommand.run, shiftLeft]
      cases hv : s.values.getLast? with
      | none => exact Nat.le_refl _
      | some x =>
          refine held_withValues_le ?_
          simp only [List.length_cons, List.length_dropLast]
          omega

end Stack

/-! ## Outliers -/

/-- A write outside the program extent makes at most one new outlier. -/
lemma Outlier.length_put_le (row column : Nat) (v : Float) (os : List Outlier) :
    (put row column v os).length ≤ os.length + 1 := by
  induction os with
  | nil => simp [put]
  | cons o rest ih =>
      simp only [put]
      split_ifs <;> simp only [List.length_cons] <;> omega

lemma Grid.length_outliers_set_le (g : Grid) (column row : Nat) (v : Float) :
    (g.set column row v).outliers.length ≤ g.outliers.length + 1 := by
  unfold Grid.set
  split_ifs
  · exact Nat.le_succ _
  · exact Outlier.length_put_le row column v g.outliers

/-! ## Machines -/

namespace Machine

variable {κ : Type}

/-- What a machine has piled up, in units of one value: an outlier costs the three values of the
write that made it, and an emission the value that is printed. -/
def weight (m : Machine κ) : Nat :=
  m.stack.held + 3 * m.grid.outliers.length + m.output.items.length

lemma weight_load (source : String) (values : List Float) (compass : κ) :
    (load source values compass).weight = values.length := by
  simp only [weight, load, Stack.held_ofValues]
  rfl

lemma gains_onStack {α : Type} {act : StackM α} {n : Int} (h : Gains Stack.held n act) :
    Gains weight n (onStack act : MachineM κ α) := by
  intro m
  simp only [onStack]
  cases hs : act m.stack with
  | ok a s =>
      have hgain := h.of_ok hs
      simp only [weight]
      omega
  | error f s =>
      have hgain := h.of_error hs
      simp only [weight]
      omega

lemma gains_get : Gains weight (-1) (onGrid GridCommand.get.run : MachineM κ Unit) := by
  intro m
  simp only [onGrid, GridCommand.run]
  rcases hv : m.stack.values with _ | ⟨y, _ | ⟨x, rest⟩⟩
  · exact Nat.le_refl _
  · exact Nat.le_refl _
  · have hheld := m.stack.held_withValues (m.grid.read x y :: rest)
    simp only [hv, List.length_cons] at hheld
    simp only [weight]
    omega

/-- The three operands of a write pay for the outlier. -/
lemma gains_put : Gains weight 0 (onGrid GridCommand.put.run : MachineM κ Unit) := by
  intro m
  simp only [onGrid, GridCommand.run]
  rcases hv : m.stack.values with _ | ⟨y, _ | ⟨x, _ | ⟨v, rest⟩⟩⟩
  · exact Nat.le_refl _
  · exact Nat.le_refl _
  · exact Nat.le_refl _
  · have hheld := m.stack.held_withValues rest
    simp only [hv, List.length_cons] at hheld
    simp only
    cases hw : m.grid.write x y v with
    | ok g =>
        obtain ⟨column, row, rfl⟩ := Grid.exists_set_of_write hw
        have hset := m.grid.length_outliers_set_le column row v
        simp only [weight]
        omega
    | error f =>
        simp only [weight]
        omega

lemma gains_jump (x y : Float) : Gains weight 0 (jump x y : MachineM κ Unit) := by
  intro m
  simp only [jump]
  cases m.pointer.jump x y m.grid.width m.grid.height with
  | ok p => simp [weight]
  | error f => exact Nat.le_refl _

lemma gains_readInput : Gains weight 0 (readInput : MachineM κ Float) := by
  intro m
  simp only [readInput]
  cases m.input.read <;> simp [weight]

lemma gains_emit (e : Emission) : Gains weight 1 (modify (emit e) : MachineM κ Unit) := by
  refine gains_modify fun m => ?_
  simp only [weight, emit, Queue.write, List.length_append, List.length_singleton]
  omega

variable [Compass κ]

/-- **No instruction adds more than one.** -/
lemma gains_execute (i : Instruction) : Gains weight 1 (execute i : MachineM κ Unit) := by
  cases i with
  | literal v => exact gains_onStack (Stack.gains_push v)
  | arithmetic op => exact (gains_onStack (Stack.gains_compute op)).mono (by decide)
  | stack command => exact gains_onStack (Stack.gains_run command)
  | grid command =>
      cases command with
      | get => exact gains_get.mono (by decide)
      | put => exact gains_put.mono (by decide)
  | mirror _ | skip | string _ | halt => exact gains_modify fun m => Int.le.intro 1 rfl
  | skipIfZero =>
      refine Gains.mono (n := -1 + 0) ?_ (by decide)
      refine (gains_onStack Stack.gains_pop).bind (by decide) fun v => ?_
      split_ifs
      · exact gains_modify fun m => Int.le.intro 0 rfl
      · exact gains_pure _
  | jump =>
      exact ((gains_onStack Stack.gains_popTwo).bind (by decide) fun ⟨y, x⟩ =>
        gains_jump x y).mono (by decide)
  | printChar =>
      refine Gains.mono (n := -1 + 1) ?_ (by decide)
      refine (gains_onStack Stack.gains_pop).bind (by decide) fun v => ?_
      cases Number.char? v with
      | some c => exact gains_emit _
      | none => exact gains_throw _
  | printNumber =>
      exact ((gains_onStack Stack.gains_pop).bind (by decide) fun v =>
        gains_emit (.number v)).mono (by decide)
  | input =>
      exact gains_readInput.bind (by decide) fun v => gains_onStack (Stack.gains_push v)
  | idle => exact (gains_pure _).mono (by decide)

/-- A literal pushes its cells one by one, and everything else is an instruction. -/
lemma gains_visit (cell : Float) : Gains weight 1 (visit cell : MachineM κ Unit) := by
  intro m
  unfold visit
  cases m.phase with
  | reading quote =>
      simp only
      split_ifs
      · exact Int.le.intro 1 rfl
      · exact gains_onStack (Stack.gains_push cell) m
  | _ =>
      simp only
      cases Instruction.ofCell cell with
      | ok i => exact gains_execute i m
      | error f => exact Nat.le_refl _

/-- A step adds at most one, whether it succeeds, fails or finds no cell. -/
lemma weight_of_step {m m' : Machine κ} (h : m.step = .ok m') : m'.weight ≤ m.weight + 1 := by
  have harrived : m.arrived.weight = m.weight := rfl
  obtain ⟨-, ⟨-, rfl⟩ | ⟨cell, -, hv | ⟨f, m₁, hv, rfl⟩⟩⟩ := step_cases h
  · exact Nat.le_succ _
  · have hgain := (gains_visit cell).of_ok hv
    omega
  · have hgain := (gains_visit cell).of_error hv
    have hfailed : (m₁.fail f).weight = m₁.weight := rfl
    omega

/-- One call adds at most the steps it makes.  What is handed to the host is not lost. -/
lemma weight_apply (call : HostCall) (m : Machine κ) :
    (call.apply m).weight + (call.hands m).length + m.steps ≤ m.weight + (call.apply m).steps := by
  by_cases hcall : call = .step
  · subst hcall
    rw [HostCall.hands_step]
    cases hend : m.hasTerminated with
    | true =>
        rw [HostCall.apply_step_of_terminated hend]
        simp
    | false =>
        obtain ⟨m', hstep⟩ := exists_step hend
        have hweight := weight_of_step hstep
        rw [HostCall.apply_step_of_ok hstep, steps_of_step hstep, List.length_nil]
        omega
  · -- The emissions that leave the output are those that are handed over.
    obtain ⟨input, output, hm⟩ := HostCall.apply_of_ne_step hcall m
    have hbalance := congrArg List.length (call.output_balance m)
    simp only [HostCall.emits, if_neg hcall, List.length_append, List.length_nil, hm] at hbalance
    simp only [hm, weight]
    omega

/-- All calls together add at most the steps they make. -/
lemma weight_after (m : Machine κ) (calls : List HostCall) :
    (m.after calls).weight + (m.history HostCall.hands calls).length + m.steps ≤
      m.weight + (m.after calls).steps := by
  induction calls generalizing m with
  | nil => simp [history]
  | cons call calls ih =>
      have hcall := weight_apply call m
      have hrest := ih (call.apply m)
      rw [after_cons, history, List.length_append]
      omega

/-- **What a program piles up is bounded by its steps.**  Whatever the host has done with a loaded
program, the values in all frames and registers, three for each outlier of the grid, and the
emissions printed so far, collected or not, are together no more than the values given to the
program and the steps it has made. -/
theorem holdings_within_steps (source : String) (values : List Float) (compass : κ)
    (calls : List HostCall) :
    let start := load source values compass
    let m := start.after calls
    m.stack.held + 3 * m.grid.outliers.length + (start.history HostCall.emits calls).length ≤
      values.length + m.steps := by
  intro start m
  have hstart : start.weight = values.length := weight_load source values compass
  have hweight : m.weight + (start.history HostCall.hands calls).length + 0 ≤
      start.weight + m.steps := weight_after start calls
  have hemitted : (start.history HostCall.emits calls).length =
      (start.history HostCall.hands calls).length + m.output.items.length := by
    have hbalance := history_balance HostCall.output_balance start calls
    rw [← List.length_append, ← hbalance]
    rfl
  calc m.stack.held + 3 * m.grid.outliers.length + (start.history HostCall.emits calls).length
      = m.weight + (start.history HostCall.hands calls).length := by
        rw [hemitted, weight]
        omega
    _ ≤ start.weight + m.steps := hweight
    _ = values.length + m.steps := by rw [hstart]

end Machine

end Aquarium
