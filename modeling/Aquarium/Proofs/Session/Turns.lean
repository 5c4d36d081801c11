import Aquarium.Session
import Aquarium.Proofs.Machine.Calls
import Mathlib.Logic.Function.Iterate

/-!
# Turns of a run

A turn of a run has three forms.  The session has its own reasons to stop, which are the same
with and without a debugger (`stopped?`).  If it has none, the debugger may pause it.  Otherwise
it makes a step (`stepped`).

A run is then a number of steps, taken while there is no reason to stop, with a reason or a pause
at its end (`exists_iterate_of_runWithin`), and a run without debugger is found again from such a
number (`runWithin_none`).
-/

namespace Aquarium

namespace Outcome

/-- Whether a run was paused by the debugger. -/
def isPause : Outcome → Bool
  | .paused _ => true
  | _ => false

end Outcome

namespace Session

variable {κ : Type}

/-- The outcome with which a session stops on its own, if it does. -/
def stopped? (s : Session κ) : Option Outcome :=
  if s.machine.hasTerminated then some (ending s.machine)
  else if s.isSpent then some .stepLimit
  else none

lemma running_of_stopped? {s : Session κ} (h : s.stopped? = none) :
    s.machine.hasTerminated = false := by
  unfold stopped? at h
  split_ifs at h with hend
  simpa using hend

lemma unspent_of_stopped? {s : Session κ} (h : s.stopped? = none) : s.isSpent = false := by
  unfold stopped? at h
  split_ifs at h with _ hspent
  simpa using hspent

/-- A session goes on while its machine does and its budget, if it has one, is not used up. -/
lemma stopped?_eq_none {s : Session κ} (hrunning : s.machine.hasTerminated = false)
    (hbelow : ∀ limit, s.settings.maxSteps = some limit → s.machine.steps < limit) :
    s.stopped? = none := by
  have hunspent : s.isSpent = false := by
    unfold isSpent
    cases hlimit : s.settings.maxSteps with
    | none => rfl
    | some limit => simpa using hbelow limit hlimit
  simp [stopped?, hrunning, hunspent]

/-- A session never stops on its own with a pause. -/
lemma isPause_of_stopped? {s : Session κ} {o : Outcome} (h : s.stopped? = some o) :
    o.isPause = false := by
  unfold stopped? at h
  split_ifs at h
  · cases h
    unfold ending
    cases s.machine.fault? <;> rfl
  · cases h
    rfl

@[simp] lemma consult_none (s : Session κ) : s.consult none = (none, none) := by
  simp [consult]

lemma consult_some {s : Session κ} {p : Position} (h : s.machine.nextPosition = some p)
    (d : Debugger) : s.consult (some d) = ((d.check p).1, some (d.check p).2) := by
  simp only [consult, h]

/-- Taking the emissions one by one comes to draining the queue. -/
lemma collect_eq (s : Session κ) :
    s.collect =
      { s with
        machine := s.machine.drainOutput.2
        output := s.output ++ s.machine.drainOutput.1 } := by
  rw [collect, Machine.takeUpTo_eq_drainOutput (Nat.le_succ _)]

@[simp] lemma collect_machine (s : Session κ) :
    s.collect.machine = { s.machine with output := {} } := by
  rw [collect_eq]
  rfl

@[simp] lemma collect_output (s : Session κ) :
    s.collect.output.toList = s.output.toList ++ s.machine.output.items := by
  simp [collect_eq, Machine.drainOutput, Queue.drain]

variable [Compass κ]

/-- The session after one more step of its machine, whose emissions have been collected. -/
def stepped (s : Session κ) : Session κ :=
  collect { s with machine := HostCall.step.apply s.machine }

@[simp] lemma stepped_settings (s : Session κ) : s.stepped.settings = s.settings := rfl

lemma stepped_machine (s : Session κ) :
    s.stepped.machine = { HostCall.step.apply s.machine with output := {} } :=
  collect_machine _

lemma stepped_of_step {s : Session κ} {m : Machine κ} (h : s.machine.step = .ok m) :
    s.stepped = collect { s with machine := m } := by
  rw [stepped, HostCall.apply_step_of_ok h]

/-- A session that goes on makes exactly one step. -/
lemma stepped_steps {s : Session κ} (h : s.stopped? = none) :
    s.stepped.machine.steps = s.machine.steps + 1 := by
  obtain ⟨m, hm⟩ := Machine.exists_step (running_of_stopped? h)
  rw [stepped_of_step hm, collect_machine, ← Machine.steps_of_step hm]

/-! ## The three forms of a turn -/

/-- A reason to stop comes before the debugger, which is not asked. -/
lemma turn_of_stopped {s : Session κ} {o : Outcome} (h : s.stopped? = some o)
    (d : Option Debugger) : s.turn d = .stop o s d := by
  unfold stopped? at h
  unfold turn
  split_ifs at h ⊢
  · cases h; rfl
  · cases h; rfl

/-- A pause leaves the session as it is. -/
lemma turn_of_paused {s : Session κ} (h : s.stopped? = none) {d d' : Option Debugger}
    {event : DebugEvent} (hd : s.consult d = (some event, d')) :
    s.turn d = .stop (.paused event) s d' := by
  unfold turn
  rw [if_neg (by simp [running_of_stopped? h]), if_neg (by simp [unspent_of_stopped? h]), hd]

lemma turn_of_moving {s : Session κ} (h : s.stopped? = none) {d d' : Option Debugger}
    (hd : s.consult d = (none, d')) :
    s.turn d = .go s.stepped (d'.map Debugger.markExecuted) := by
  obtain ⟨m, hm⟩ := Machine.exists_step (running_of_stopped? h)
  unfold turn
  rw [if_neg (by simp [running_of_stopped? h]), if_neg (by simp [unspent_of_stopped? h]), hd]
  simp only [hm]
  rw [stepped_of_step hm]

/-! ## Runs as numbers of steps -/

/-- What every run amounts to: some steps, none of them made by a session that would have stopped
on its own, and then the reason to stop, or a pause. -/
lemma exists_iterate_of_runWithin {turns : Nat} {s s' : Session κ} {d d' : Option Debugger}
    {o : Outcome} (h : s.runWithin turns d = some (o, s', d')) :
    ∃ k, s' = stepped^[k] s ∧ (∀ j < k, (stepped^[j] s).stopped? = none) ∧
      (s'.stopped? = some o ∨ s'.stopped? = none ∧ o.isPause = true) := by
  induction turns generalizing s d with
  | zero => cases h
  | succ turns ih =>
      rw [runWithin] at h
      cases hstop : s.stopped? with
      | some o' =>
          rw [turn_of_stopped hstop] at h
          cases h
          exact ⟨0, rfl, fun j hj => absurd hj (Nat.not_lt_zero j), Or.inl hstop⟩
      | none =>
          rcases hd : s.consult d with ⟨_ | event, d₁⟩
          · rw [turn_of_moving hstop hd] at h
            obtain ⟨k, hs', hopen, hend⟩ := ih h
            refine ⟨k + 1, hs', ?_, hend⟩
            intro j hj
            cases j with
            | zero => exact hstop
            | succ j => exact hopen j (Nat.lt_of_succ_lt_succ hj)
          · rw [turn_of_paused hstop hd] at h
            cases h
            exact ⟨0, rfl, fun j hj => absurd hj (Nat.not_lt_zero j), Or.inr ⟨hstop, rfl⟩⟩

/-- A run without debugger goes on until the session stops on its own. -/
lemma runWithin_none {k : Nat} {s : Session κ} {o : Outcome}
    (hopen : ∀ j < k, (stepped^[j] s).stopped? = none)
    (hend : (stepped^[k] s).stopped? = some o) {turns : Nat} (hturns : k < turns) :
    s.runWithin turns none = some (o, stepped^[k] s, none) := by
  induction k generalizing s turns with
  | zero =>
      obtain ⟨turns, rfl⟩ := Nat.exists_eq_succ_of_ne_zero (Nat.pos_iff_ne_zero.mp hturns)
      have hstop : s.turn none = .stop o s none := turn_of_stopped hend none
      rw [runWithin, hstop]
      rfl
  | succ k ih =>
      obtain ⟨turns, rfl⟩ := Nat.exists_eq_succ_of_ne_zero (Nat.ne_zero_of_lt hturns)
      have hmove : s.turn none = .go s.stepped none :=
        turn_of_moving (hopen 0 (Nat.succ_pos k)) (consult_none s)
      rw [runWithin, hmove]
      refine ih (fun j hj => ?_) hend (Nat.lt_of_succ_lt_succ hturns)
      exact hopen (j + 1) (Nat.succ_lt_succ hj)

lemma iterate_stepped_settings (k : Nat) (s : Session κ) :
    (stepped^[k] s).settings = s.settings := by
  induction k with
  | zero => rfl
  | succ k ih => rw [Function.iterate_succ_apply', stepped_settings, ih]

/-- Steps that are made are counted. -/
lemma iterate_stepped_steps {k : Nat} {s : Session κ}
    (hopen : ∀ j < k, (stepped^[j] s).stopped? = none) :
    (stepped^[k] s).machine.steps = s.machine.steps + k := by
  induction k with
  | zero => rfl
  | succ k ih =>
      rw [Function.iterate_succ_apply', stepped_steps (hopen k (Nat.lt_succ_self k)),
        ih fun j hj => hopen j (Nat.lt_succ_of_lt hj), Nat.add_assoc]

/-- A budget bounds the number of steps. -/
lemma lt_turnLimit {k : Nat} {s : Session κ}
    (hopen : ∀ j < k, (stepped^[j] s).stopped? = none)
    (hbound : s.settings.maxSteps.isSome ∨ k < 2 ^ 64) : k < s.turnLimit := by
  unfold turnLimit
  cases hlimit : s.settings.maxSteps with
  | none =>
      rw [hlimit] at hbound
      simpa using hbound
  | some limit =>
      simp only
      cases k with
      | zero => omega
      | succ k =>
          -- The session before the last step was not spent.
          have hlast := unspent_of_stopped? (hopen k (Nat.lt_succ_self k))
          have hcount := iterate_stepped_steps fun j hj => hopen j (Nat.lt_succ_of_lt hj)
          simp only [isSpent, iterate_stepped_settings, hlimit, decide_eq_false_iff_not] at hlast
          omega

/-! ## Runs turn by turn -/

/-- A stopped session needs one turn, and there always is one. -/
lemma run_of_stopped {s : Session κ} {o : Outcome} (h : s.stopped? = some o)
    (d : Option Debugger) : s.run d = some (o, s, d) := by
  obtain ⟨turns, hturns⟩ : ∃ turns, s.turnLimit = turns + 1 := by
    unfold turnLimit
    cases s.settings.maxSteps with
    | some limit => exact ⟨_, rfl⟩
    | none => exact ⟨2 ^ 64 - 1, rfl⟩
  rw [run, hturns, runWithin, turn_of_stopped h]

/-- With a budget, the turns that remain after a step suffice for the rest of the run. -/
lemma turnLimit_stepped {s : Session κ} (h : s.stopped? = none) {limit : Nat}
    (hlimit : s.settings.maxSteps = some limit) : s.turnLimit = s.stepped.turnLimit + 1 := by
  have hunspent := unspent_of_stopped? h
  simp only [isSpent, hlimit, decide_eq_false_iff_not] at hunspent
  simp only [turnLimit, stepped_settings, hlimit, stepped_steps h]
  omega

lemma run_of_paused {s : Session κ} (h : s.stopped? = none) {limit : Nat}
    (hlimit : s.settings.maxSteps = some limit) {d d' : Option Debugger} {event : DebugEvent}
    (hd : s.consult d = (some event, d')) : s.run d = some (.paused event, s, d') := by
  rw [run, turnLimit_stepped h hlimit, runWithin, turn_of_paused h hd]

/-- A run that makes a step goes on as the run of the session after it. -/
lemma run_of_moving {s : Session κ} (h : s.stopped? = none) {limit : Nat}
    (hlimit : s.settings.maxSteps = some limit) {d d' : Option Debugger}
    (hd : s.consult d = (none, d')) : s.run d = s.stepped.run (d'.map Debugger.markExecuted) := by
  rw [run, turnLimit_stepped h hlimit, runWithin, turn_of_moving h hd]
  rfl

end Session

end Aquarium
