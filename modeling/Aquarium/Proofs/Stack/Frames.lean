import Aquarium.Proofs.Number.Value
import Aquarium.Proofs.Stack.Values
import Mathlib.Data.List.Infix

/-!
# Frames that are set aside are safe

Whatever is done with the frame in use, frames set aside stay as they are until they are taken
back.  An operation leaves the archive alone, puts one frame on top of it, or takes the top frame
off (`archive_apply`).  So as long as the depth does not fall below that of some frames, these
frames stay at the bottom of the archive (`suffix_after`), and closing a frame brings back what
was there when it was opened, register included.
-/

namespace Aquarium

/-- An operation on a stack.  Operations on a grid come with the grid they are done on, whichever
that is. -/
inductive StackCall where
  | push (v : Float)
  | pop
  | popTwo
  | command (c : StackCommand)
  | arithmetic (op : Operator)
  | grid (c : GridCommand) (g : Grid)

namespace StackCall

/-- The stack after an operation, successful or not. -/
def apply : StackCall → Stack → Stack
  | .push v, s => stateAfter (Stack.push v) s
  | .pop, s => stateAfter Stack.pop s
  | .popTwo, s => stateAfter Stack.popTwo s
  | .command c, s => stateAfter c.run s
  | .arithmetic op, s => stateAfter (Stack.compute op) s
  | .grid c g, s => (stateAfter c.run (s, g)).1

end StackCall

namespace Stack

/-- The stack after some operations. -/
def after (s : Stack) (calls : List StackCall) : Stack :=
  calls.foldl (fun s call => call.apply s) s

@[simp] lemma after_nil (s : Stack) : s.after [] = s := rfl

@[simp] lemma after_cons (s : Stack) (call : StackCall) (calls : List StackCall) :
    s.after (call :: calls) = (call.apply s).after calls := rfl

/-! ## One operation -/

/-- What becomes of an archive in one operation: it stays, gets a frame, or loses one. -/
def Shifted (K K' : List Frame) : Prop := K' = K ∨ (∃ f, K' = f :: K) ∨ ∃ f, K = f :: K'

lemma Shifted.of_eq {K K' : List Frame} (h : K' = K) : Shifted K K' := Or.inl h

lemma splitOff_of_le {n : Nat} {s : Stack} (h : n ≤ s.size) :
    splitOff n s =
      .ok ()
        { active := { values := s.values.take n }
          archive := { s.active with values := s.values.drop n } :: s.archive } :=
  if_neg (Nat.not_lt.mpr h)

lemma splitOff_of_lt {n : Nat} {s : Stack} (h : s.size < n) : splitOff n s = shortOf n s := if_pos h

/-- The frame of a split is put on the archive, unless there are too few values. -/
lemma shifted_splitOff (n : Nat) (s : Stack) :
    Shifted s.archive (stateAfter (splitOff n) s).archive := by
  rcases Nat.lt_or_ge s.size n with hshort | hlong
  · rw [stateAfter_of_error (splitOff_of_lt hshort)]
    exact .of_eq rfl
  · rw [stateAfter_of_ok (splitOff_of_le hlong)]
    exact Or.inr (Or.inl ⟨_, rfl⟩)

lemma shifted_openFrame (s : Stack) : Shifted s.archive (stateAfter openFrame s).archive := by
  cases hv : s.values with
  | nil =>
      have hfail : openFrame s = .error (.underflow 1 s.size) s := by
        simp only [openFrame, bind_apply, pop, hv, shortOf]
      rw [stateAfter_of_error hfail]
      exact .of_eq rfl
  | cons count rest =>
      have hpop : pop s = .ok count (s.withValues rest) := by simp only [pop, hv]
      cases hindex : Number.index? count with
      | none =>
          have hfail : openFrame s = .error (.badSubstackSize count) (s.withValues rest) := by
            simp only [openFrame, bind_apply, hpop, hindex]
            rfl
          rw [stateAfter_of_error hfail]
          exact .of_eq rfl
      | some n =>
          have hsplit : openFrame s = splitOff n (s.withValues rest) := by
            simp only [openFrame, bind_apply, hpop, hindex]
          unfold stateAfter
          rw [hsplit]
          exact shifted_splitOff n (s.withValues rest)

lemma shifted_closeFrame (s : Stack) : Shifted s.archive (stateAfter closeFrame s).archive := by
  cases hK : s.archive with
  | nil =>
      have hclear : closeFrame s = .ok () {} := by simp only [closeFrame, hK]
      rw [stateAfter_of_ok hclear]
      exact .of_eq rfl
  | cons parent K =>
      have hclose : closeFrame s =
          .ok ()
            { active := { parent with values := s.values ++ parent.values }, archive := K } := by
        simp only [closeFrame, hK]
      rw [stateAfter_of_ok hclose]
      exact Or.inr (Or.inr ⟨parent, rfl⟩)

lemma archive_exchangeRegister (s : Stack) :
    (stateAfter exchangeRegister s).archive = s.archive := by
  simp only [stateAfter, exchangeRegister, shortOf]
  cases s.active.register with
  | some v => rfl
  | none => cases s.values <;> rfl

/-- Only the three instructions that handle frames can touch the archive. -/
lemma shifted_command (command : StackCommand) (s : Stack) :
    Shifted s.archive (stateAfter command.run s).archive := by
  cases hframes : command.handlesFrames with
  | false => exact .of_eq (keeps_sameFrames_run s hframes s (.refl s)).archive_eq
  | true =>
      cases command with
      | openFrame => exact shifted_openFrame s
      | closeFrame => exact shifted_closeFrame s
      | register => exact .of_eq (archive_exchangeRegister s)
      | duplicate | drop | swap | rotate | shiftRight | shiftLeft | reverse | length =>
          cases hframes

/-- **One operation moves the archive by one frame at most**, and never touches the others. -/
theorem archive_apply (call : StackCall) (s : Stack) :
    Shifted s.archive (call.apply s).archive := by
  cases call with
  | push v => exact .of_eq (keeps_sameFrames_push s v s (.refl s)).archive_eq
  | pop => exact .of_eq (keeps_sameFrames_pop s s (.refl s)).archive_eq
  | popTwo => exact .of_eq (keeps_sameFrames_popTwo s s (.refl s)).archive_eq
  | command c => exact shifted_command c s
  | arithmetic op => exact .of_eq (keeps_sameFrames_compute s op s (.refl s)).archive_eq
  | grid c g => exact .of_eq (sameFrames_grid c s g).archive_eq

/-! ## Sequences of operations -/

/-- A frame is lost only by going below its depth. -/
lemma suffix_apply {base : List Frame} {s : Stack} (h : base <:+ s.archive) {call : StackCall}
    (hdepth : base.length ≤ (call.apply s).depth) : base <:+ (call.apply s).archive := by
  rcases archive_apply call s with hsame | ⟨f, hmore⟩ | ⟨f, hless⟩
  · rw [hsame]
    exact h
  · rw [hmore]
    exact h.trans (List.suffix_cons f _)
  · rw [hless, List.suffix_cons_iff] at h
    rcases h with hall | hbelow
    · -- The frame taken off belonged to the base, but then the depth is below that of the base.
      rw [hall, List.length_cons] at hdepth
      exact absurd hdepth (Nat.not_succ_le_self _)
    · exact hbelow

/-- Frames stay at the bottom of the archive while the depth does not fall below theirs. -/
lemma suffix_after {base : List Frame} {calls : List StackCall} :
    ∀ {s : Stack}, base <:+ s.archive →
      (∀ part, part <+: calls → base.length ≤ (s.after part).depth) →
      base <:+ (s.after calls).archive := by
  induction calls with
  | nil => exact fun h _ => h
  | cons call calls ih =>
      intro s h hdepth
      have hfirst : base.length ≤ (call.apply s).depth :=
        hdepth [call] ⟨calls, rfl⟩
      refine ih (suffix_apply h hfirst) ?_
      intro part hpart
      exact hdepth (call :: part) (List.cons_prefix_cons.mpr ⟨rfl, hpart⟩)

/-! ## Opening and closing -/

/-- Opening a frame on top of enough values: the values `B` below their count make the new frame,
and the values `A` below them are set aside with the register. -/
lemma openFrame_eq_ok {s : Stack} {A B : List Float} {n : Float} (hs : s.bottomUp = A ++ B ++ [n])
    (hn : Number.value? n = some (B.length : ℚ)) (hB : B.length < Number.indexBound) :
    openFrame s =
      .ok ()
        { active := { values := B.reverse }
          archive := { s.active with values := A.reverse } :: s.archive } := by
  have hvalues : s.values = n :: (B.reverse ++ A.reverse) := by
    have hreverse := congrArg List.reverse hs
    simpa [bottomUp, values] using hreverse
  have hpop : pop s = .ok n (s.withValues (B.reverse ++ A.reverse)) := by simp only [pop, hvalues]
  have hindex : Number.index? n = some B.length := Number.index?_eq_some_iff.mpr ⟨hn, hB⟩
  have henough : B.length ≤ (s.withValues (B.reverse ++ A.reverse)).size := by
    simp [size, withValues]
  simp only [openFrame, bind_apply, hpop, hindex, splitOff_of_le henough]
  simp [withValues, values]

lemma closeFrame_eq_ok {s : Stack} {f : Frame} {K : List Frame} (h : s.archive = f :: K) :
    closeFrame s =
      .ok () { active := { f with values := s.values ++ f.values }, archive := K } := by
  simp only [closeFrame, h]

/-- **Frames are bracketed.**  On values `A ++ B ++ [n]`, where `n` is the length of `B`, a frame
can be opened.  It holds `B` and an empty register.  Whatever operations follow, as long as the
depth does not fall below that of the new frame, the archive keeps the frame with `A` and the old
register on top of the old archive at its bottom; and when the depth is that of the new frame
again, closing it puts the values in use on top of `A` and brings the old register and the old
archive back.  (A stack has less than `2 ^ 64` values.) -/
theorem substack_bracketing {s : Stack} {A B : List Float} {n : Float}
    (hs : s.bottomUp = A ++ B ++ [n]) (hn : Number.value? n = some (B.length : ℚ))
    (hB : B.length < 2 ^ 64) :
    ∃ opened, StackCommand.openFrame.run s = .ok () opened ∧
      opened.bottomUp = B ∧ opened.active.register = none ∧ opened.depth = s.depth + 1 ∧
      ∀ calls : List StackCall,
        (∀ part, part <+: calls → s.depth + 1 ≤ (opened.after part).depth) →
          (∀ part, part <+: calls →
            { values := A.reverse, register := s.active.register } :: s.archive <:+
              (opened.after part).archive) ∧
          ((opened.after calls).depth = s.depth + 1 →
            ∃ closed, StackCommand.closeFrame.run (opened.after calls) = .ok () closed ∧
              closed.bottomUp = A ++ (opened.after calls).bottomUp ∧
              closed.active.register = s.active.register ∧
              closed.archive = s.archive) := by
  let parent : Frame := { values := A.reverse, register := s.active.register }
  let opened : Stack := { active := { values := B.reverse }, archive := parent :: s.archive }
  have hopen : openFrame s = .ok () opened := openFrame_eq_ok hs hn hB
  refine ⟨opened, hopen, List.reverse_reverse B, rfl, rfl, ?_⟩
  intro calls hdepth
  have hbottom : ∀ part, part <+: calls → parent :: s.archive <:+ (opened.after part).archive := by
    intro part hpart
    refine suffix_after (List.suffix_refl _) fun part' hpart' => ?_
    exact hdepth part' (hpart'.trans hpart)
  refine ⟨hbottom, ?_⟩
  intro hend
  have harchive : parent :: s.archive = (opened.after calls).archive :=
    (hbottom calls (List.prefix_refl calls)).eq_of_length hend.symm
  refine ⟨_, closeFrame_eq_ok harchive.symm, ?_, rfl, rfl⟩
  simp [bottomUp, values, parent]

/-- Inside the bracket another frame is opened and closed, an operation fails and the register is
filled; afterwards the value that was set aside and the old register are back. -/
theorem substack_bracketing_nested :
    let s : Stack :=
      { active :=
          { values := [Number.ofNat 2, Number.ofNat 7, Number.ofNat 6, Number.ofNat 5]
            register := some (Number.ofNat 9) } }
    let calls : List StackCall :=
      [.push (Number.ofNat 1), .command .openFrame, .command .register, .arithmetic .add,
        .command .closeFrame, .command .register, .push (Number.ofNat 3)]
    ∃ opened closed, StackCommand.openFrame.run s = .ok () opened ∧
      (opened.after calls).active =
        { values := [Number.ofNat 3], register := some (Number.ofNat 6) } ∧
      StackCommand.closeFrame.run (opened.after calls) = .ok () closed ∧
      closed.bottomUp = [Number.ofNat 5, Number.ofNat 3] ∧
      closed.active.register = some (Number.ofNat 9) ∧
      closed.archive = [] := by
  intro s calls
  have hvalue : Number.value? (Number.ofNat 2) = some ((2 : Nat) : ℚ) :=
    Number.natural?_eq_some_iff.mp (by decide +kernel)
  obtain ⟨opened, hopened, -, -, -, hbracket⟩ :=
    substack_bracketing (s := s) (A := [Number.ofNat 5]) (B := [Number.ofNat 6, Number.ofNat 7])
      rfl hvalue (by decide)
  obtain rfl := stateAfter_of_ok hopened
  have hdepth : ∀ part ∈ calls.inits,
      s.depth + 1 ≤ ((stateAfter StackCommand.openFrame.run s).after part).depth := by
    decide +kernel
  obtain ⟨-, hclose⟩ :=
    hbracket calls fun part hpart => hdepth part ((List.mem_inits _ _).mpr hpart)
  obtain ⟨closed, hclosed, hvalues, hregister, harchive⟩ := hclose (by decide +kernel)
  refine ⟨_, closed, hopened, by decide +kernel, hclosed, ?_, hregister, harchive⟩
  rw [hvalues]
  decide +kernel

end Stack

end Aquarium
