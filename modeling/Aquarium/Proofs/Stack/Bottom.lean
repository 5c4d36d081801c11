import Aquarium.Proofs.Stack.Frames

/-!
# Beneath the bottom of the stack

Most operations on a stack work from the top and do not reach the bottom of the bottommost frame.
If there are more values beneath it (`Stack.underlay`), they answer the same and leave the values
where they are, also while the bottommost frame is in the archive.

There are two ways to notice such values.  Some instructions look at the bottom or at the number of
values (`StackCommand.seesBottom`), and any operation that runs short of values would not have done
so (`RunsShort`).  Neither matters in a frame that is not the bottommost.
-/

namespace Aquarium

/-- Whether a fault is that of finding too few values. -/
def Fault.isUnderflow : Fault → Bool
  | .underflow _ _ => true
  | _ => false

/-- An action has ended because it found fewer values than it needs. -/
def RunsShort {σ α : Type} : EStateM.Result Fault σ α → Prop
  | .error f _ => f.isUnderflow = true
  | .ok _ _ => False

/-- A sequence runs short where its first action does. -/
lemma RunsShort.bind {σ α β : Type} {act : EStateM Fault σ α} {s : σ} (h : RunsShort (act s))
    (next : α → EStateM Fault σ β) : RunsShort ((act >>= next) s) := by
  rw [bind_apply]
  revert h
  cases act s with
  | ok a s' => exact False.elim
  | error f s' => exact id

/-- The stack instructions that depend on what is at the bottom of the frame in use. -/
def StackCommand.seesBottom : StackCommand → Bool
  | .shiftRight | .shiftLeft | .reverse | .length | .closeFrame => true
  | .duplicate | .drop | .swap | .rotate | .openFrame | .register => false

namespace Stack

/-- Archived frames with additional values beneath those of the frame that was archived first.  The
values are listed bottom first. -/
def underlayLast (b : List Float) : Frame → List Frame → List Frame
  | f, [] => [{ f with values := f.values ++ b.reverse }]
  | f, g :: rest => f :: underlayLast b g rest

/-- The stack with additional values beneath those of its bottommost frame, the one that was
archived first or, without an archive, the frame in use.  The values are listed bottom first. -/
def underlay (b : List Float) (s : Stack) : Stack :=
  match s.archive with
  | [] => s.withValues (s.values ++ b.reverse)
  | f :: rest => { s with archive := underlayLast b f rest }

/-- Values given before others lie beneath them. -/
lemma ofValues_append (b values : List Float) :
    ofValues (b ++ values) = (ofValues values).underlay b := by
  simp only [ofValues, List.reverse_append]
  rfl

variable (b : List Float)

/-- A value is pushed on the other end, so it does not matter what lies beneath. -/
lemma underlay_push (s : Stack) (v : Float) :
    (s.underlay b).withValues (v :: (s.underlay b).values) =
      (s.withValues (v :: s.values)).underlay b := by
  obtain ⟨_, _ | _⟩ := s <;> rfl

lemma follows_push (v : Float) : Follows (underlay b) (push v) (push v) := by
  intro s
  simp only [push, mapState, underlay_push]

/-! ## Taking values

With an archive the frame in use is not the one that is underlaid.  Without one, the operation
runs short if there are too few values, and otherwise takes them from above the additional ones. -/

section

variable {s : Stack}

lemma pop_underlay (h : s.archive ≠ [] ∨ ¬ RunsShort (pop s)) :
    pop (s.underlay b) = mapState (underlay b) (pop s) := by
  obtain ⟨⟨values, register⟩, archive⟩ := s
  rcases archive with _ | ⟨f, rest⟩ <;> rcases values with _ | ⟨v, values⟩
  · exact absurd rfl (h.resolve_left (absurd rfl))
  all_goals rfl

lemma popTwo_underlay (h : s.archive ≠ [] ∨ ¬ RunsShort (popTwo s)) :
    popTwo (s.underlay b) = mapState (underlay b) (popTwo s) := by
  obtain ⟨⟨values, register⟩, archive⟩ := s
  rcases archive with _ | ⟨f, rest⟩ <;> rcases values with _ | ⟨x, _ | ⟨y, values⟩⟩
  · exact absurd rfl (h.resolve_left (absurd rfl))
  · exact absurd rfl (h.resolve_left (absurd rfl))
  all_goals rfl

lemma compute_underlay {op : Operator} (h : s.archive ≠ [] ∨ ¬ RunsShort (compute op s)) :
    compute op (s.underlay b) = mapState (underlay b) (compute op s) := by
  refine bind_eq_mapState (popTwo_underlay b ?_) fun ⟨x, y⟩ => ?_
  · exact h.imp_right fun hlong hshort => hlong (hshort.bind _)
  · simp only
    cases op.eval y x with
    | ok v => exact follows_push b v
    | error f => exact follows_throw _ f

lemma grid_underlay {command : GridCommand} {g : Grid}
    (h : s.archive ≠ [] ∨ ¬ RunsShort (command.run (s, g))) :
    command.run (s.underlay b, g) = mapState (Prod.map (underlay b) id) (command.run (s, g)) := by
  obtain ⟨⟨values, register⟩, archive⟩ := s
  cases command with
  | get =>
      rcases archive with _ | ⟨f, rest⟩ <;> rcases values with _ | ⟨y, _ | ⟨x, values⟩⟩
      · exact absurd rfl (h.resolve_left (absurd rfl))
      · exact absurd rfl (h.resolve_left (absurd rfl))
      all_goals rfl
  | put =>
      rcases archive with _ | ⟨f, rest⟩ <;>
        rcases values with _ | ⟨y, _ | ⟨x, _ | ⟨v, values⟩⟩⟩
      · exact absurd rfl (h.resolve_left (absurd rfl))
      · exact absurd rfl (h.resolve_left (absurd rfl))
      · exact absurd rfl (h.resolve_left (absurd rfl))
      · simp only [GridCommand.run, Stack.values, underlay, withValues, List.cons_append]
        cases g.write x y v <;> rfl
      · rfl
      · rfl
      · rfl
      · simp only [GridCommand.run, Stack.values, underlay]
        cases g.write x y v <;> rfl

/-! ## Stack instructions -/

/-- A split that finds its values leaves the additional ones in the old frame. -/
lemma splitOff_underlay {n : Nat} (h : s.archive ≠ [] ∨ n ≤ s.size) :
    splitOff n (s.underlay b) = mapState (underlay b) (splitOff n s) := by
  cases harchive : s.archive with
  | nil =>
      have hn : n ≤ s.active.values.length := h.resolve_left (absurd harchive)
      have hunder : s.underlay b = s.withValues (s.values ++ b.reverse) := by
        simp only [underlay, harchive]
      have hsize : n ≤ (s.underlay b).size := by
        rw [hunder]
        show n ≤ (s.active.values ++ b.reverse).length
        rw [List.length_append]
        exact Nat.le_add_right_of_le hn
      rw [splitOff_of_le hsize, splitOff_of_le hn, hunder]
      simp only [withValues, values, List.take_append_of_le_length hn,
        List.drop_append_of_le_length hn, harchive, mapState, underlay, underlayLast]
  | cons f rest =>
      have hunder : s.underlay b = { s with archive := underlayLast b f rest } := by
        simp only [underlay, harchive]
      have hsize : (s.underlay b).size = s.size := by
        rw [hunder]
        rfl
      rcases Nat.lt_or_ge s.size n with hn | hn
      · rw [splitOff_of_lt hn, splitOff_of_lt (hsize ▸ hn), shortOf, shortOf, hsize]
        rfl
      · rw [splitOff_of_le hn, splitOff_of_le (hsize ▸ hn), hunder, harchive]
        rfl

lemma openFrame_underlay (h : s.archive ≠ [] ∨ ¬ RunsShort (openFrame s)) :
    openFrame (s.underlay b) = mapState (underlay b) (openFrame s) := by
  have hpop := pop_underlay b (h.imp_right fun hlong hshort => hlong (hshort.bind _))
  simp only [openFrame, bind_apply] at h ⊢
  rw [hpop]
  cases ht : pop s with
  | error f t => rfl
  | ok count t =>
      have harchive : t.archive = s.archive := by
        rw [← stateAfter_of_ok ht]
        exact (keeps_sameFrames_pop s s (.refl s)).archive_eq
      simp only [ht, mapState] at h ⊢
      cases hcount : Number.index? count with
      | none => rfl
      | some n =>
          simp only [hcount] at h
          refine splitOff_underlay b ?_
          rw [harchive]
          refine h.imp_right fun hlong => ?_
          by_contra hn
          rw [splitOff_of_lt (Nat.lt_of_not_le hn)] at hlong
          exact hlong rfl

/-- Above the bottommost frame even the instructions that look at the bottom of a frame do not look
beneath it. -/
lemma command_underlay_of_archive (command : StackCommand) (h : s.archive ≠ []) :
    command.run (s.underlay b) = mapState (underlay b) (command.run s) := by
  obtain ⟨⟨values, register⟩, _ | ⟨f, rest⟩⟩ := s
  · exact absurd rfl h
  cases command with
  | openFrame => exact openFrame_underlay b (Or.inl h)
  | closeFrame =>
      cases rest with
      | nil =>
          show EStateM.Result.ok () _ = EStateM.Result.ok () _
          simp only [underlayLast, underlay, withValues, Stack.values, List.append_assoc]
      | cons g rest => rfl
  | register =>
      cases register with
      | some v => rfl
      | none => cases values <;> rfl
  | duplicate | drop | shiftRight | shiftLeft => cases values <;> rfl
  | reverse | length => rfl
  | swap => rcases values with _ | ⟨x, _ | ⟨y, values⟩⟩ <;> rfl
  | rotate => rcases values with _ | ⟨x, _ | ⟨y, _ | ⟨z, values⟩⟩⟩ <;> rfl

/-- **Values beneath the bottom go unnoticed** by an instruction that finds the values it needs and
does not look at the bottom, and by any instruction above the bottommost frame. -/
theorem command_underlay {command : StackCommand}
    (h : s.archive ≠ [] ∨ command.seesBottom = false ∧ ¬ RunsShort (command.run s)) :
    command.run (s.underlay b) = mapState (underlay b) (command.run s) := by
  obtain harchive | ⟨hblind, hlong⟩ := h
  · exact command_underlay_of_archive b command harchive
  obtain ⟨⟨values, register⟩, _ | ⟨f, rest⟩⟩ := s
  · cases command with
    | shiftRight | shiftLeft | reverse | length | closeFrame => cases hblind
    | openFrame => exact openFrame_underlay b (Or.inr hlong)
    | register =>
        cases register with
        | some v => rfl
        | none =>
            cases values with
            | nil => exact absurd rfl hlong
            | cons v values => rfl
    | duplicate | drop =>
        cases values with
        | nil => exact absurd rfl hlong
        | cons v values => rfl
    | swap =>
        rcases values with _ | ⟨x, _ | ⟨y, values⟩⟩
        · exact absurd rfl hlong
        · exact absurd rfl hlong
        · rfl
    | rotate =>
        rcases values with _ | ⟨x, _ | ⟨y, _ | ⟨z, values⟩⟩⟩
        · exact absurd rfl hlong
        · exact absurd rfl hlong
        · exact absurd rfl hlong
        · rfl
  · exact command_underlay_of_archive b command (List.cons_ne_nil f rest)

end

end Stack

end Aquarium
