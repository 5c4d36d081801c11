import Aquarium.Instruction
import Aquarium.Proofs.Action

/-!
# Operations on the values alone

Most operations on a stack work on the values of the frame in use.  They change no register and
no frame that is set aside, and a fault in their midst does not either.  The exceptions are the
three instructions that handle frames and registers (`StackCommand.handlesFrames`).
-/

namespace Aquarium

/-- Whether a stack instruction handles more than the values of the frame in use. -/
def StackCommand.handlesFrames : StackCommand → Bool
  | .openFrame | .closeFrame | .register => true
  | .duplicate | .drop | .swap | .rotate | .shiftRight | .shiftLeft | .reverse | .length => false

namespace Stack

/-- The second stack differs from the first in the values of the frame in use at most. -/
def SameFrames (s t : Stack) : Prop := ∃ values, t = s.withValues values

lemma SameFrames.refl (s : Stack) : SameFrames s s := ⟨s.values, rfl⟩

/-- In particular the frames set aside are the same. -/
lemma SameFrames.archive_eq {s t : Stack} (h : SameFrames s t) : t.archive = s.archive := by
  obtain ⟨values, rfl⟩ := h
  rfl

lemma keeps_sameFrames_push (s : Stack) (v : Float) : Keeps (SameFrames s) (push v) := by
  rintro t ⟨values, rfl⟩
  exact ⟨v :: values, rfl⟩

lemma keeps_sameFrames_pop (s : Stack) : Keeps (SameFrames s) pop := by
  rintro t ⟨values, rfl⟩
  cases values with
  | nil => exact ⟨[], rfl⟩
  | cons v rest => exact ⟨rest, rfl⟩

/-- Two values are taken together or not at all. -/
lemma keeps_sameFrames_popTwo (s : Stack) : Keeps (SameFrames s) popTwo := by
  rintro t ⟨values, rfl⟩
  rcases values with _ | ⟨x, _ | ⟨y, rest⟩⟩
  · exact ⟨[], rfl⟩
  · exact ⟨[x], rfl⟩
  · exact ⟨rest, rfl⟩

/-- An operator takes two values and pushes one, or has taken them when it faults. -/
lemma keeps_sameFrames_compute (s : Stack) (op : Operator) :
    Keeps (SameFrames s) (compute op) := by
  refine (keeps_sameFrames_popTwo s).bind ?_
  rintro ⟨x, y⟩
  simp only
  cases op.eval y x with
  | ok v => exact keeps_sameFrames_push s v
  | error f => exact keeps_throw _ f

/-- A stack instruction that does not handle frames works on the values alone. -/
lemma keeps_sameFrames_run (s : Stack) {command : StackCommand}
    (h : command.handlesFrames = false) : Keeps (SameFrames s) command.run := by
  cases command with
  | openFrame | closeFrame | register => simp [StackCommand.handlesFrames] at h
  | duplicate =>
      refine (keeps_sameFrames_pop s).bind fun v => ?_
      exact (keeps_sameFrames_push s v).bind fun _ => keeps_sameFrames_push s v
  | drop => exact (keeps_sameFrames_pop s).bind fun _ => keeps_pure _ _
  | swap =>
      rintro t ⟨values, rfl⟩
      rcases values with _ | ⟨x, _ | ⟨y, rest⟩⟩ <;> exact ⟨_, rfl⟩
  | rotate =>
      rintro t ⟨values, rfl⟩
      rcases values with _ | ⟨x, _ | ⟨y, _ | ⟨z, rest⟩⟩⟩ <;> exact ⟨_, rfl⟩
  | shiftRight =>
      rintro t ⟨values, rfl⟩
      cases values <;> exact ⟨_, rfl⟩
  | shiftLeft =>
      rintro t ⟨values, rfl⟩
      cases values <;> exact ⟨_, rfl⟩
  | reverse | length =>
      rintro t ⟨values, rfl⟩
      exact ⟨_, rfl⟩

/-- Grid instructions take their operands from the frame in use. -/
lemma sameFrames_grid (command : GridCommand) (s : Stack) (g : Grid) :
    SameFrames s (stateAfter command.run (s, g)).1 := by
  obtain ⟨⟨values, register⟩, archive⟩ := s
  cases command with
  | get => rcases values with _ | ⟨y, _ | ⟨x, rest⟩⟩ <;> exact ⟨_, rfl⟩
  | put =>
      rcases values with _ | ⟨y, _ | ⟨x, _ | ⟨v, rest⟩⟩⟩
      · exact ⟨_, rfl⟩
      · exact ⟨_, rfl⟩
      · exact ⟨_, rfl⟩
      · simp only [stateAfter, GridCommand.run, Stack.values]
        cases g.write x y v <;> exact ⟨_, rfl⟩

end Stack

end Aquarium
