import Aquarium.Proofs.Machine.Instructions

/-!
# What executions come to

An instruction first looks whether there are enough values on the stack (`demand`), and then
whether the values are acceptable (`refusal?`).  Both together are `failure?`: the fault that an
instruction ends with, and how many values it has taken off the stack by then.  An execution comes
to that and to nothing else (`execute_comesTo`): if there is a failure, the machine is left as it
was but for the values that are gone, and if there is none, the execution succeeds.

A step is an execution on the next cell (`step_of_running`), or it reads a cell of a string
literal, which never fails (`step_of_reading`).
-/

namespace Aquarium

/-! ## Demands and refusals -/

/-- How many values a stack instruction needs, given whether the register is filled. -/
def StackCommand.demand (filled : Bool) : StackCommand → Nat
  | .duplicate | .drop | .shiftRight | .shiftLeft | .openFrame => 1
  | .swap => 2
  | .rotate => 3
  | .register => if filled then 0 else 1
  | .reverse | .length | .closeFrame => 0

namespace Instruction

/-- How many values an instruction needs, given whether the register is filled. -/
def demand (filled : Bool) : Instruction → Nat
  | .skipIfZero | .printChar | .printNumber => 1
  | .arithmetic _ | .grid .get | .jump => 2
  | .grid .put => 3
  | .stack command => command.demand filled
  | .literal _ | .mirror _ | .skip | .string _ | .input | .halt | .idle => 0

/-- Why an instruction does not accept its operands, if so, and how many values it has taken then.
The values are listed top first. -/
def refusal? (g : Grid) : Instruction → List Float → Option (Fault × Nat)
  | .arithmetic .div, x :: _ | .arithmetic .mod, x :: _ =>
      if Number.isZero x then some (.divisionByZero, 2) else none
  | .stack .openFrame, count :: rest =>
      match Number.index? count with
      | some n => if rest.length < n then some (.underflow n rest.length, 1) else none
      | none => some (.badSubstackSize count, 1)
  | .printChar, v :: _ =>
      match Number.char? v with
      | some _ => none
      | none => some (.unprintable v, 1)
  | .jump, y :: x :: _ =>
      match Number.index? x, Number.index? y with
      | some column, some row =>
          if column < g.width ∧ row < g.height then none else some (.outside x y, 2)
      | _, _ => some (.outside x y, 2)
  | .grid .put, y :: x :: _ =>
      match Number.index? x, Number.index? y with
      | some _, some _ => none
      | _, _ => some (.outside x y, 3)
  | _, _ => none

/-- The fault an instruction ends with, if it does, and how many values are gone then. -/
def failure? (i : Instruction) (s : Stack) (g : Grid) : Option (Fault × Nat) :=
  if s.size < i.demand s.active.register.isSome then
    some (.underflow (i.demand s.active.register.isSome) s.size, 0)
  else i.refusal? g s.values

end Instruction

/-- The stack without its topmost `n` values. -/
def Stack.without (s : Stack) (n : Nat) : Stack := s.withValues (s.values.drop n)

/-- An action ends as predicted: with the given fault in the state that is left after some values
are gone, or with success in some state. -/
def ComesTo {σ : Type} (result : EStateM.Result Fault σ Unit) (left : Nat → σ) :
    Option (Fault × Nat) → Prop
  | some (f, n) => result = .error f (left n)
  | none => ∃ s, result = .ok () s

/-! ## Stack instructions -/

lemma StackCommand.run_comesTo (command : StackCommand) (s : Stack) (g : Grid) :
    ComesTo (command.run s) s.without ((Instruction.stack command).failure? s g) := by
  obtain ⟨⟨values, register⟩, archive⟩ := s
  cases command with
  | duplicate | drop | shiftRight | shiftLeft =>
      cases values with
      | nil => exact rfl
      | cons x rest => exact ⟨_, rfl⟩
  | swap =>
      rcases values with _ | ⟨x, _ | ⟨y, rest⟩⟩
      · exact rfl
      · exact rfl
      · exact ⟨_, rfl⟩
  | rotate =>
      rcases values with _ | ⟨x, _ | ⟨y, _ | ⟨z, rest⟩⟩⟩
      · exact rfl
      · exact rfl
      · exact rfl
      · exact ⟨_, rfl⟩
  | reverse | length => exact ⟨_, rfl⟩
  | closeFrame => cases archive <;> exact ⟨_, rfl⟩
  | register =>
      cases register with
      | some v => exact ⟨_, rfl⟩
      | none =>
          cases values with
          | nil => exact rfl
          | cons x rest => exact ⟨_, rfl⟩
  | openFrame =>
      cases values with
      | nil => exact rfl
      | cons count rest =>
          simp only [run, Stack.openFrame, bind_apply, Stack.pop, Stack.values,
            Instruction.failure?, Instruction.demand, demand, Instruction.refusal?, Stack.size,
            List.length_cons]
          cases Number.index? count with
          | none => exact rfl
          | some n =>
              by_cases hshort : rest.length < n
              · simp only [if_pos hshort]
                exact if_pos hshort
              · simp only [if_neg hshort]
                exact ⟨_, if_neg hshort⟩

lemma Stack.compute_comesTo (op : Operator) (s : Stack) (g : Grid) :
    ComesTo (Stack.compute op s) s.without ((Instruction.arithmetic op).failure? s g) := by
  obtain ⟨⟨values, register⟩, archive⟩ := s
  rcases values with _ | ⟨x, _ | ⟨y, rest⟩⟩
  · exact rfl
  · exact rfl
  · cases op with
    | div | mod =>
        simp only [Stack.compute, bind_apply, Stack.popTwo, Stack.values, Operator.eval,
          Instruction.failure?, Instruction.demand, Instruction.refusal?, Stack.size,
          List.length_cons]
        by_cases hzero : Number.isZero x
        · simp only [if_pos hzero]
          exact rfl
        · simp only [if_neg hzero]
          exact ⟨_, rfl⟩
    | _ => exact ⟨_, rfl⟩

/-! ## All instructions -/

namespace Machine

variable {κ : Type}

/-- The machine without the topmost `n` values of its stack. -/
def without (m : Machine κ) (n : Nat) : Machine κ := { m with stack := m.stack.without n }

/-- What is left of the stack is what is left of the machine. -/
lemma onStack_comesTo {act : StackM Unit} {failure : Option (Fault × Nat)} {m : Machine κ}
    (h : ComesTo (act m.stack) m.stack.without failure) :
    ComesTo (onStack act m) m.without failure := by
  cases failure with
  | none =>
      obtain ⟨s, hs⟩ := h
      exact ⟨{ m with stack := s }, by simp only [onStack, hs]⟩
  | some failure =>
      have hs : act m.stack = .error failure.1 (m.stack.without failure.2) := h
      show onStack act m = .error failure.1 (m.without failure.2)
      simp only [onStack, hs]
      rfl

lemma put_comesTo (m : Machine κ) :
    ComesTo (onGrid GridCommand.put.run m) m.without
      ((Instruction.grid .put).failure? m.stack m.grid) := by
  obtain ⟨_, grid, _, ⟨⟨values, register⟩, archive⟩, _, _, _, _, _⟩ := m
  rcases values with _ | ⟨y, _ | ⟨x, _ | ⟨v, rest⟩⟩⟩
  · exact rfl
  · exact rfl
  · exact rfl
  · simp only [onGrid, GridCommand.run, Stack.values, Grid.write, Instruction.failure?,
      Instruction.demand, Instruction.refusal?, Stack.size, List.length_cons]
    cases Number.index? x with
    | none => exact rfl
    | some column =>
        cases Number.index? y with
        | none => exact rfl
        | some row => exact ⟨_, rfl⟩

variable [Compass κ]

lemma jump_comesTo (m : Machine κ) :
    ComesTo (execute .jump m) m.without (Instruction.jump.failure? m.stack m.grid) := by
  obtain ⟨_, grid, pointer, ⟨⟨values, register⟩, archive⟩, _, _, _, _, _⟩ := m
  rcases values with _ | ⟨y, _ | ⟨x, rest⟩⟩
  · exact rfl
  · exact rfl
  · simp only [execute, bind_apply, onStack, Stack.popTwo, Stack.values, jump, Pointer.jump,
      Instruction.failure?, Instruction.demand, Instruction.refusal?, Stack.size, List.length_cons]
    cases Number.index? x with
    | none => exact rfl
    | some column =>
        cases Number.index? y with
        | none => exact rfl
        | some row =>
            by_cases hin : column < grid.width ∧ row < grid.height
            · simp only [if_pos hin]
              exact ⟨_, rfl⟩
            · simp only [if_neg hin]
              exact rfl

/-- **An execution comes to its failure**, or it succeeds. -/
lemma execute_comesTo (i : Instruction) (m : Machine κ) :
    ComesTo (execute i m) m.without (i.failure? m.stack m.grid) := by
  obtain ⟨_, grid, _, ⟨⟨values, register⟩, archive⟩, ⟨items⟩, _, _, _, _⟩ := m
  cases i with
  | literal _ | mirror _ | skip | string _ | halt | idle => exact ⟨_, rfl⟩
  | arithmetic op => exact onStack_comesTo (Stack.compute_comesTo op _ grid)
  | stack command => exact onStack_comesTo (command.run_comesTo _ grid)
  | jump => exact jump_comesTo _
  | input => cases items <;> exact ⟨_, rfl⟩
  | grid command =>
      cases command with
      | put => exact put_comesTo _
      | get =>
          rcases values with _ | ⟨y, _ | ⟨x, rest⟩⟩
          · exact rfl
          · exact rfl
          · exact ⟨_, rfl⟩
  | printNumber =>
      cases values with
      | nil => exact rfl
      | cons v rest => exact ⟨_, rfl⟩
  | skipIfZero =>
      cases values with
      | nil => exact rfl
      | cons v rest =>
          simp only [execute, bind_apply, onStack, Stack.pop, Stack.values]
          split_ifs <;> exact ⟨_, rfl⟩
  | printChar =>
      cases values with
      | nil => exact rfl
      | cons v rest =>
          simp only [execute, bind_apply, onStack, Stack.pop, Stack.values, Instruction.failure?,
            Instruction.demand, Instruction.refusal?, Stack.size, List.length_cons]
          cases Number.char? v with
          | none => exact rfl
          | some c => exact ⟨_, rfl⟩

end Machine

/-- The fault of executing a cell, if there is one, and how many values are gone then. -/
def cellFailure? (cell : Float) (s : Stack) (g : Grid) : Option (Fault × Nat) :=
  match Instruction.ofCell cell with
  | .ok i => i.failure? s g
  | .error f => some (f, 0)

namespace Machine

variable {κ : Type} [Compass κ]

/-- A cell that is no instruction faults before anything is taken. -/
lemma visit_comesTo {m : Machine κ} (hphase : m.phase = .running) (cell : Float) :
    ComesTo (visit cell m) m.without (cellFailure? cell m.stack m.grid) := by
  simp only [visit, hphase, cellFailure?]
  cases Instruction.ofCell cell with
  | ok i => exact execute_comesTo i m
  | error f => exact rfl

/-- A step of a running machine that finds a cell either fails as the cell does, with nothing but
the operands gone, or does not fail. -/
lemma step_of_running {m : Machine κ} (hphase : m.phase = .running) {cell : Float}
    (hcell : m.advance.cell? = some cell) :
    ∃ m', m.step = .ok m' ∧
      match cellFailure? cell m.stack m.grid with
      | some (f, n) => m' = (m.arrived.without n).fail f
      | none => m'.phase ≠ .failed := by
  have hend : m.hasTerminated = false := by rw [hasTerminated, hphase, Phase.isFinal]
  have harrived : m.arrived.cell? = some cell := hcell
  have hvisit : ComesTo (visit cell m.arrived) m.arrived.without
      (cellFailure? cell m.stack m.grid) :=
    visit_comesTo (m := m.arrived) hphase cell
  simp only [step_eq hend, harrived]
  cases hfailure : cellFailure? cell m.stack m.grid with
  | none =>
      rw [hfailure] at hvisit
      obtain ⟨m', hm'⟩ := hvisit
      have hrunning : m.arrived.phase ≠ .failed := by
        show m.phase ≠ .failed
        rw [hphase]
        exact Phase.noConfusion
      exact ⟨m', by rw [hm'], not_failed_of_visit hrunning hm'⟩
  | some failure =>
      rw [hfailure] at hvisit
      have hv : visit cell m.arrived = .error failure.1 (m.arrived.without failure.2) := hvisit
      exact ⟨_, by rw [hv], rfl⟩

/-- A cell of a literal is read, whatever it holds. -/
lemma step_of_reading {m : Machine κ} {quote : Char} (hphase : m.phase = .reading quote)
    {cell : Float} (hcell : m.advance.cell? = some cell) :
    ∃ m', m.step = .ok m' ∧ m'.phase ≠ .failed := by
  have hend : m.hasTerminated = false := by rw [hasTerminated, hphase, Phase.isFinal]
  have harrived : m.arrived.cell? = some cell := hcell
  have hreading : m.arrived.phase = .reading quote := hphase
  simp only [step_eq hend, harrived, visit, hreading]
  split_ifs
  · exact ⟨_, rfl, Phase.noConfusion⟩
  · refine ⟨_, rfl, ?_⟩
    show m.phase ≠ .failed
    rw [hphase]
    exact Phase.noConfusion

end Machine

end Aquarium
