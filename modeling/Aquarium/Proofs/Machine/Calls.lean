import Aquarium.Proofs.Machine.Instructions

/-!
# The calls of a host

A host makes steps, offers input and collects output, in any order.  `HostCall` is one such call,
`HostCall.answer` what it tells the host, and `Machine.after` the machine after a list of calls, so
a statement about `m.after calls` for all `calls` is a statement about everything that can be
reached from `m`.

All calls but a step touch the queues only (`apply_of_ne_step`).  An invariant of every reachable
machine is therefore shown in two parts, one for the queues and one for a step (`after_keeps`).
-/

namespace Aquarium

/-- A call of the host. -/
inductive HostCall where
  | step
  | giveChar (c : Char)
  | giveText (text : String)
  | feed (text : String)
  | takeOutput
  | drainOutput
deriving DecidableEq

/-- What a call tells the host. -/
inductive Answer where
  /-- The call was carried out, and there is nothing to tell. -/
  | done
  /-- A step was made, and whether the machine has ended with it. -/
  | stepped (ended : Bool)
  /-- Emissions that were collected. -/
  | emissions (es : List Emission)
  /-- The call was refused. -/
  | refused (fault : Fault)
deriving DecidableEq

variable {κ : Type} [Compass κ]

namespace HostCall

/-- The machine after a call.  A call that is refused leaves it as it was. -/
def apply : HostCall → Machine κ → Machine κ
  | .step, m =>
      match m.step with
      | .ok m' => m'
      | .error _ => m
  | .giveChar c, m => m.giveChar c
  | .giveText text, m =>
      match m.giveText text with
      | .ok m' => m'
      | .error _ => m
  | .feed text, m => m.feed text
  | .takeOutput, m =>
      match m.takeOutput with
      | .ok (_, m') => m'
      | .error _ => m
  | .drainOutput, m => m.drainOutput.2

/-- What the host is told.  Only a step, an offer that has to be one character and the collection
of a single emission can be refused. -/
def answer : HostCall → Machine κ → Answer
  | .step, m =>
      match m.step with
      | .ok m' => .stepped m'.hasTerminated
      | .error f => .refused f
  | .giveChar _, _ => .done
  | .giveText text, m =>
      match m.giveText text with
      | .ok _ => .done
      | .error f => .refused f
  | .feed _, _ => .done
  | .takeOutput, m =>
      match m.takeOutput with
      | .ok (e, _) => .emissions [e]
      | .error f => .refused f
  | .drainOutput, m => .emissions m.drainOutput.1

/-- Every call but a step changes nothing except the queues. -/
lemma apply_of_ne_step {call : HostCall} (h : call ≠ .step) (m : Machine κ) :
    ∃ input output, call.apply m = { m with input := input, output := output } := by
  cases call with
  | step => exact absurd rfl h
  | giveChar c => exact ⟨_, m.output, rfl⟩
  | giveText text =>
      simp only [apply, Machine.giveText]
      split
      · rename_i hgiven
        split at hgiven <;> cases hgiven
        exact ⟨_, m.output, rfl⟩
      · exact ⟨m.input, m.output, rfl⟩
  | feed text => exact ⟨_, m.output, rfl⟩
  | takeOutput =>
      simp only [apply, Machine.takeOutput]
      split
      · rename_i htaken
        split at htaken <;> cases htaken
        exact ⟨m.input, _, rfl⟩
      · exact ⟨m.input, m.output, rfl⟩
  | drainOutput => exact ⟨m.input, _, rfl⟩

lemma apply_step_of_ok {m m' : Machine κ} (h : m.step = .ok m') : HostCall.step.apply m = m' := by
  simp only [apply, h]

lemma apply_step_of_terminated {m : Machine κ} (h : m.hasTerminated = true) :
    HostCall.step.apply m = m := by
  simp only [apply, Machine.step_of_terminated h]

lemma answer_step_of_ok {m m' : Machine κ} (h : m.step = .ok m') :
    HostCall.step.answer m = .stepped m'.hasTerminated := by
  simp only [answer, h]

lemma answer_step_of_terminated {m : Machine κ} (h : m.hasTerminated = true) :
    HostCall.step.answer m = .refused .alreadyTerminated := by
  simp only [answer, Machine.step_of_terminated h]

/-- A machine that has ended is left with all but its queues. -/
lemma apply_of_terminated {m : Machine κ} (h : m.hasTerminated = true) (call : HostCall) :
    ∃ input output, call.apply m = { m with input := input, output := output } := by
  by_cases hcall : call = .step
  · exact ⟨m.input, m.output, by rw [hcall, apply_step_of_terminated h]⟩
  · exact apply_of_ne_step hcall m

end HostCall

namespace Machine

omit [Compass κ] in
lemma takeUpTo_of_length_le (m : Machine κ) {items : List Emission} {n : Nat}
    (h : items.length ≤ n) :
    takeUpTo n { m with output := ⟨items⟩ } = (items, { m with output := {} }) := by
  induction items generalizing n with
  | nil => cases n <;> rfl
  | cons e rest ih =>
      obtain ⟨n, rfl⟩ := Nat.exists_eq_succ_of_ne_zero (Nat.ne_zero_of_lt h)
      have hrest := ih (Nat.le_of_succ_le_succ h)
      simp only [takeUpTo, takeOutput, Queue.read, hrest]

omit [Compass κ] in
/-- **To collect one by one until there is nothing left is to collect all at once.** -/
lemma takeUpTo_eq_drainOutput {m : Machine κ} {n : Nat} (h : m.output.size ≤ n) :
    m.takeUpTo n = m.drainOutput :=
  m.takeUpTo_of_length_le h

/-- The machine after some calls of its host. -/
def after (m : Machine κ) (calls : List HostCall) : Machine κ :=
  calls.foldl (fun m call => call.apply m) m

@[simp] lemma after_nil (m : Machine κ) : m.after [] = m := rfl

@[simp] lemma after_cons (m : Machine κ) (call : HostCall) (calls : List HostCall) :
    m.after (call :: calls) = (call.apply m).after calls := rfl

lemma after_append (m : Machine κ) (calls calls' : List HostCall) :
    m.after (calls ++ calls') = (m.after calls).after calls' := List.foldl_append

/-- A property that survives any change of the queues and every step survives all calls. -/
lemma after_keeps {P : Machine κ → Prop}
    (hqueues : ∀ m input output, P m → P { m with input := input, output := output })
    (hstep : ∀ m m', P m → m.step = .ok m' → P m') (calls : List HostCall) :
    ∀ m, P m → P (m.after calls) := by
  induction calls with
  | nil => exact fun m hm => hm
  | cons call calls ih =>
      intro m hm
      rw [after_cons]
      refine ih (call.apply m) ?_
      by_cases hcall : call = .step
      · subst hcall
        cases hs : m.step with
        | ok m' =>
            rw [HostCall.apply_step_of_ok hs]
            exact hstep m m' hm hs
        | error f =>
            simp only [HostCall.apply, hs]
            exact hm
      · obtain ⟨input, output, h⟩ := HostCall.apply_of_ne_step hcall m
        rw [h]
        exact hqueues m input output hm

/-- Without a step nothing but the queues changes. -/
lemma after_of_not_mem_step {calls : List HostCall} (h : .step ∉ calls) (m : Machine κ) :
    ∃ input output, m.after calls = { m with input := input, output := output } := by
  induction calls generalizing m with
  | nil => exact ⟨m.input, m.output, rfl⟩
  | cons call calls ih =>
      rw [List.mem_cons, not_or] at h
      obtain ⟨input, output, hcall⟩ := HostCall.apply_of_ne_step (Ne.symm h.1) m
      obtain ⟨input', output', hrest⟩ := ih h.2 (call.apply m)
      exact ⟨input', output', by rw [after_cons, hrest, hcall]⟩

end Machine

end Aquarium
