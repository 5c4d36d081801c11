import Aquarium.Proofs.Stack.Values
import Mathlib.Data.List.Rotate

/-!
# Shuffles

Five stack instructions do nothing but bring the values of the frame in use into another order.
As a list with the top first, the stack is rotated by one of them as a whole, by another one the
other way round, and turned over by a third; the remaining two do the same with the topmost values
only.  `Shuffle.reorder` says this in terms of lists, `Shuffle.enough` says how many values it
takes, and `Shuffle.run_eq` says that there is no more to a shuffle than that.

A sequence of shuffles is then the composition of its reorderings (`Shuffle.runAll_of_enough`),
since a shuffle leaves as many values as it finds.  So a law between shuffles is a law about
rotations and reversals of lists.
-/

namespace Aquarium

/-- A stack instruction that only reorders the values of the frame in use. -/
inductive Shuffle where
  | swap
  | rotate
  | shiftRight
  | shiftLeft
  | reverse

namespace Shuffle

/-- The stack instruction that a shuffle is. -/
def command : Shuffle → StackCommand
  | .swap => .swap
  | .rotate => .rotate
  | .shiftRight => .shiftRight
  | .shiftLeft => .shiftLeft
  | .reverse => .reverse

/-- Executes shuffles one after the other, up to the first fault. -/
def runAll : List Shuffle → StackM Unit
  | [] => pure ()
  | shuffle :: later => do
      shuffle.command.run
      runAll later

/-- How many values a shuffle asks for. -/
def enough : Shuffle → Nat
  | .reverse => 0
  | .shiftRight | .shiftLeft => 1
  | .swap => 2
  | .rotate => 3

/-- The order into which a shuffle brings the values, top first. -/
def reorder : Shuffle → List Float → List Float
  | .swap, values => (values.take 2).reverse ++ values.drop 2
  | .rotate, values => (values.take 3).rotate 1 ++ values.drop 3
  | .shiftRight, values => values.rotate 1
  | .shiftLeft, values => values.rotate (values.length - 1)
  | .reverse, values => values.reverse

/-! ## One shuffle -/

/-- No value is lost or gained. -/
lemma perm_reorder (shuffle : Shuffle) (values : List Float) :
    (shuffle.reorder values).Perm values := by
  cases shuffle with
  | swap =>
      simpa only [reorder, List.take_append_drop] using
        (List.reverse_perm (values.take 2)).append_right (values.drop 2)
  | rotate =>
      simpa only [reorder, List.take_append_drop] using
        (List.rotate_perm (values.take 3) 1).append_right (values.drop 3)
  | shiftRight => exact List.rotate_perm values 1
  | shiftLeft => exact List.rotate_perm values _
  | reverse => exact List.reverse_perm values

/-- The last of some values comes to the front by a rotation. -/
lemma rotate_concat (values : List Float) (x : Float) :
    (values ++ [x]).rotate ((values ++ [x]).length - 1) = x :: values := by
  rw [List.length_append, List.length_singleton, Nat.add_sub_cancel,
    List.rotate_append_length_eq]
  rfl

/-- **What a shuffle does.**  With too few values it is refused and leaves the stack as it was, and
otherwise it reorders the values of the frame in use. -/
lemma run_eq (shuffle : Shuffle) (s : Stack) :
    shuffle.command.run s =
      if s.size < shuffle.enough then .error (.underflow shuffle.enough s.size) s
      else .ok () (s.withValues (shuffle.reorder s.values)) := by
  obtain ⟨⟨values, register⟩, archive⟩ := s
  cases shuffle with
  | swap => rcases values with _ | ⟨x, _ | ⟨y, rest⟩⟩ <;> rfl
  | rotate => rcases values with _ | ⟨x, _ | ⟨y, _ | ⟨z, rest⟩⟩⟩ <;> rfl
  | shiftRight =>
      cases values with
      | nil => rfl
      | cons x rest =>
          simp [command, StackCommand.run, Stack.shiftRight, Stack.values, Stack.size, enough,
            reorder]
  | shiftLeft =>
      rcases List.eq_nil_or_concat' values with rfl | ⟨rest, x, rfl⟩
      · rfl
      · simp only [command, StackCommand.run, Stack.shiftLeft, Stack.values, Stack.size, enough,
          reorder, rotate_concat]
        simp
  | reverse => rfl

lemma run_of_enough (shuffle : Shuffle) {s : Stack} (h : shuffle.enough ≤ s.size) :
    shuffle.command.run s = .ok () (s.withValues (shuffle.reorder s.values)) := by
  rw [run_eq, if_neg (Nat.not_lt.mpr h)]

lemma run_of_short (shuffle : Shuffle) {s : Stack} (h : s.size < shuffle.enough) :
    shuffle.command.run s = .error (.underflow shuffle.enough s.size) s := by
  rw [run_eq, if_pos h]

/-- A shuffle keeps the values up to their order, the register and the archive, also when it is
refused. -/
lemma kept_by_run (shuffle : Shuffle) (s : Stack) :
    (stateAfter shuffle.command.run s).values.Perm s.values ∧
      (stateAfter shuffle.command.run s).active.register = s.active.register ∧
      (stateAfter shuffle.command.run s).archive = s.archive := by
  rcases Nat.lt_or_ge s.size shuffle.enough with hshort | henough
  · rw [stateAfter_of_error (run_of_short shuffle hshort)]
    exact ⟨List.Perm.refl _, rfl, rfl⟩
  · rw [stateAfter_of_ok (run_of_enough shuffle henough)]
    exact ⟨perm_reorder shuffle s.values, rfl, rfl⟩

/-! ## Sequences of shuffles -/

/-- Shuffles that find enough values in the beginning find enough values all along. -/
lemma runAll_of_enough {shuffles : List Shuffle} :
    ∀ {s : Stack}, (∀ shuffle ∈ shuffles, shuffle.enough ≤ s.size) →
      runAll shuffles s =
        .ok () (s.withValues (shuffles.foldl (fun values c => c.reorder values) s.values)) := by
  induction shuffles with
  | nil => exact fun _ => rfl
  | cons shuffle later ih =>
      intro s h
      have hsize : (s.withValues (shuffle.reorder s.values)).size = s.size :=
        (perm_reorder shuffle s.values).length_eq
      rw [runAll, bind_apply, run_of_enough shuffle (h shuffle List.mem_cons_self)]
      refine ih fun c hc => ?_
      rw [hsize]
      exact h c (List.mem_cons_of_mem _ hc)

/-- Shuffles whose reorderings add up to nothing change nothing. -/
lemma runAll_eq_self {shuffles : List Shuffle} {s : Stack}
    (h : ∀ shuffle ∈ shuffles, shuffle.enough ≤ s.size)
    (hvalues : shuffles.foldl (fun values c => c.reorder values) s.values = s.values) :
    runAll shuffles s = .ok () s := by
  rw [runAll_of_enough h, hvalues]
  rfl

/-! ## Laws of the reorderings -/

section Reorderings

variable {values : List Float}

lemma shiftLeft_shiftRight (h : 1 ≤ values.length) :
    shiftLeft.reorder (shiftRight.reorder values) = values := by
  simp only [reorder, List.length_rotate, List.rotate_rotate]
  rw [Nat.add_sub_cancel' h, List.rotate_length]

lemma shiftRight_shiftLeft (h : 1 ≤ values.length) :
    shiftRight.reorder (shiftLeft.reorder values) = values := by
  simp only [reorder, List.rotate_rotate]
  rw [Nat.sub_add_cancel h, List.rotate_length]

/-- Repeated shifts are one rotation. -/
lemma foldl_replicate_shiftRight (n : Nat) :
    (List.replicate n shiftRight).foldl (fun values c => c.reorder values) values =
      values.rotate n := by
  induction n generalizing values with
  | zero => simp
  | succ n ih =>
      rw [List.replicate_succ, List.foldl_cons, ih]
      simp only [reorder, List.rotate_rotate, Nat.add_comm 1 n]

/-- Seen upside down, a shift to the one side is a shift to the other. -/
lemma reverse_shiftRight_reverse :
    reverse.reorder (shiftRight.reorder (reverse.reorder values)) = shiftLeft.reorder values := by
  simp only [reorder]
  rcases List.eq_nil_or_concat' values with rfl | ⟨rest, x, rfl⟩
  · rfl
  · rw [rotate_concat]
    simp

lemma swap_swap : swap.reorder (swap.reorder values) = values := by
  rcases values with _ | ⟨x, _ | ⟨y, rest⟩⟩ <;> rfl

/-- The part of three values that is rotated comes back after three times.  With fewer values it
would not. -/
lemma rotate_rotate_rotate (h : 3 ≤ values.length) :
    rotate.reorder (rotate.reorder (rotate.reorder values)) = values := by
  rcases values with _ | ⟨x, _ | ⟨y, _ | ⟨z, rest⟩⟩⟩
  · simp at h
  · simp at h
  · simp at h
  · rfl

/-- What lies below the topmost three values is not touched. -/
lemma drop_rotate (h : 3 ≤ values.length) :
    (rotate.reorder values).drop 3 = values.drop 3 := by
  have htop : ((values.take 3).rotate 1).length = 3 := by
    rw [List.length_rotate, List.length_take, Nat.min_eq_left h]
  exact List.drop_left' htop

end Reorderings

/-- **The laws of the shuffles.**  Let a stack have `s.size` values in use.

* With one value at least, the two shifts undo each other, as many shifts as there are values
  change nothing, and a shift to the right between two reversals is a shift to the left.
* With two values at least, exchanging the topmost two twice changes nothing.
* With three values at least, rotating the topmost three changes nothing below them, and doing it
  three times changes nothing at all.
* Turning the stack over twice changes nothing.

With as many values as it asks for a shuffle brings them into its order.  With fewer values it is
refused, and the stack stays as it is.  In either case the values are kept up to their order, and so
are the register and the archive. -/
theorem laws_of_shuffles (s : Stack) :
    (1 ≤ s.size →
      runAll [.shiftRight, .shiftLeft] s = .ok () s ∧
        runAll [.shiftLeft, .shiftRight] s = .ok () s ∧
        runAll (List.replicate s.size .shiftRight) s = .ok () s ∧
        runAll [.reverse, .shiftRight, .reverse] s = StackCommand.shiftLeft.run s) ∧
      (2 ≤ s.size → runAll [.swap, .swap] s = .ok () s) ∧
      (3 ≤ s.size →
        runAll [.rotate, .rotate, .rotate] s = .ok () s ∧
          ∃ t, StackCommand.rotate.run s = .ok () t ∧ t.values.drop 3 = s.values.drop 3) ∧
      runAll [.reverse, .reverse] s = .ok () s ∧
      (∀ shuffle : Shuffle,
        (shuffle.enough ≤ s.size →
          shuffle.command.run s = .ok () (s.withValues (shuffle.reorder s.values))) ∧
          (stateAfter shuffle.command.run s).values.Perm s.values ∧
          (stateAfter shuffle.command.run s).active.register = s.active.register ∧
          (stateAfter shuffle.command.run s).archive = s.archive) ∧
      (s.size = 0 →
        StackCommand.shiftRight.run s = .error (.underflow 1 s.size) s ∧
          StackCommand.shiftLeft.run s = .error (.underflow 1 s.size) s) ∧
      (s.size < 2 → StackCommand.swap.run s = .error (.underflow 2 s.size) s) ∧
      (s.size < 3 → StackCommand.rotate.run s = .error (.underflow 3 s.size) s) := by
  refine ⟨?_, ?_, ?_, ?_, fun shuffle => ⟨run_of_enough shuffle, kept_by_run shuffle s⟩, ?_,
    run_of_short .swap, run_of_short .rotate⟩
  · intro h
    refine ⟨?_, ?_, ?_, ?_⟩
    · exact runAll_eq_self (by simp [enough, h]) (shiftLeft_shiftRight h)
    · exact runAll_eq_self (by simp [enough, h]) (shiftRight_shiftLeft h)
    · refine runAll_eq_self (fun shuffle hshuffle => ?_) ?_
      · obtain rfl := List.eq_of_mem_replicate hshuffle
        exact h
      · rw [foldl_replicate_shiftRight]
        exact List.rotate_length s.values
    · have hleft : StackCommand.shiftLeft.run s =
          .ok () (s.withValues (shiftLeft.reorder s.values)) := run_of_enough .shiftLeft h
      rw [hleft, ← reverse_shiftRight_reverse]
      exact runAll_of_enough (by simp [enough, h])
  · intro h
    exact runAll_eq_self (by simp [enough, h]) swap_swap
  · intro h
    exact ⟨runAll_eq_self (by simp [enough, h]) (rotate_rotate_rotate h), _,
      run_of_enough .rotate h, drop_rotate h⟩
  · exact runAll_eq_self (by simp [enough]) (List.reverse_reverse s.values)
  · intro h
    have hshort : s.size < 1 := Nat.lt_one_iff.mpr h
    exact ⟨run_of_short .shiftRight hshort, run_of_short .shiftLeft hshort⟩

/-- The laws on four values, of which two are equal, above another frame; and the refusals on a
single value and on none. -/
theorem laws_of_shuffles_on_four_values :
    let number := Number.ofNat
    let s : Stack :=
      { active :=
          { values := [number 4, number 3, number 3, number 1], register := some (number 9) }
        archive := [{ values := [number 7] }] }
    let single := s.withValues [number 4]
    let empty := s.withValues []
    runAll [.shiftRight, .shiftLeft] s = .ok () s ∧
      runAll [.shiftRight, .shiftRight, .shiftRight, .shiftRight] s = .ok () s ∧
      runAll [.reverse, .shiftRight, .reverse] s = StackCommand.shiftLeft.run s ∧
      runAll [.swap, .swap] s = .ok () s ∧
      runAll [.rotate, .rotate, .rotate] s = .ok () s ∧
      StackCommand.swap.run single = .error (.underflow 2 1) single ∧
      StackCommand.shiftLeft.run empty = .error (.underflow 1 0) empty := by
  intro number s single empty
  obtain ⟨hshifts, hswap, hrotate, -⟩ := laws_of_shuffles s
  obtain ⟨hback, -, hturns, hupside⟩ := hshifts (by decide)
  obtain ⟨-, -, -, -, -, -, hsingle, -⟩ := laws_of_shuffles single
  obtain ⟨-, -, -, -, -, hempty, -⟩ := laws_of_shuffles empty
  exact ⟨hback, hturns, hupside, hswap (by decide), (hrotate (by decide)).1, hsingle (by decide),
    (hempty rfl).2⟩

/-! The directions.  Of the values one to four with the four on top, a shift to the right puts the
four to the bottom, and a rotation puts it below the next two. -/

example :
    let s := Stack.ofValues (List.map Number.ofNat [1, 2, 3, 4])
    (stateAfter StackCommand.shiftRight.run s).bottomUp = List.map Number.ofNat [4, 1, 2, 3] ∧
      (stateAfter StackCommand.rotate.run s).bottomUp = List.map Number.ofNat [1, 4, 2, 3] := by
  decide +kernel

end Shuffle

end Aquarium
