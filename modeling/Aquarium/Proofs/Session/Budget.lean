import Aquarium.Proofs.Session.Output

/-!
# Runs keep within their budget

A session with a budget of steps stops by itself: each turn of a run uses up a step of the
budget or is the last one (`exists_run`).  What the run answers is a fact about the machine it
leaves (`Describes`).  Nothing else can happen: the machine is only asked for a step when it can
make one, so the run never passes on a refusal.

A run without debugger is not held up, so it makes as many steps as the bare machine needs to end
or to use up the budget, and no more (`isLeast_of_stopped`).
-/

namespace Aquarium

namespace Session

variable {κ : Type}

lemma ending_eq_completed_iff {m : Machine κ} : ending m = .completed ↔ m.fault? = none := by
  unfold ending
  cases m.fault? <;> simp

lemma ending_eq_failed_iff {m : Machine κ} {f : Fault} :
    ending m = .failed f ↔ m.fault? = some f := by
  unfold ending
  cases m.fault? <;> simp

/-- What an outcome says about the machine that a run leaves, given the budget. -/
inductive Describes (limit : Nat) (m : Machine κ) : Outcome → Prop
  | completed (h : m.hasTerminated = true) (hnone : m.fault? = none) : Describes limit m .completed
  | failed {f : Fault} (h : m.hasTerminated = true) (hfault : m.fault? = some f) :
      Describes limit m (.failed f)
  | stepLimit (h : m.hasTerminated = false) (hspent : limit ≤ m.steps) :
      Describes limit m .stepLimit
  | paused {event : DebugEvent} (h : m.hasTerminated = false) (hunspent : m.steps < limit) :
      Describes limit m (.paused event)

namespace Describes

variable {limit : Nat} {m : Machine κ} {o : Outcome}

lemma ne_refused (h : Describes limit m o) (f : Fault) : o ≠ .refused f := by
  rintro rfl
  cases h

/-- An outcome that is neither the limit nor a pause tells how the machine ended. -/
lemma eq_iff {o' : Outcome} (h : Describes limit m o) (hlimit : o' ≠ .stepLimit)
    (hpause : o'.isPause = false) : o = o' ↔ m.hasTerminated = true ∧ ending m = o' := by
  cases h with
  | completed hend hnone => simp [hend, ending, hnone]
  | failed hend hfault => simp [hend, ending, hfault]
  | stepLimit hend => simp [hend, hlimit.symm]
  | paused hend =>
      simp only [hend, Bool.false_eq_true, false_and, iff_false]
      rintro rfl
      cases hpause

lemma completed_iff (h : Describes limit m o) :
    o = .completed ↔ m.hasTerminated = true ∧ m.fault? = none := by
  rw [h.eq_iff Outcome.noConfusion rfl, ending_eq_completed_iff]

lemma failed_iff (h : Describes limit m o) (f : Fault) :
    o = .failed f ↔ m.hasTerminated = true ∧ m.fault? = some f := by
  rw [h.eq_iff Outcome.noConfusion rfl, ending_eq_failed_iff]

end Describes

section Budget

variable {s : Session κ} {limit : Nat}

lemma isSpent_iff (hlimit : s.settings.maxSteps = some limit) :
    s.isSpent = true ↔ limit ≤ s.machine.steps := by
  simp only [isSpent, hlimit, decide_eq_true_eq]

/-- A session goes on exactly if its machine has neither ended nor used up the budget. -/
lemma stopped?_eq_none_iff (hlimit : s.settings.maxSteps = some limit) :
    s.stopped? = none ↔ s.machine.hasTerminated = false ∧ s.machine.steps < limit := by
  rw [← Nat.not_le, ← isSpent_iff hlimit, Bool.not_eq_true]
  constructor
  · exact fun h => ⟨running_of_stopped? h, unspent_of_stopped? h⟩
  · rintro ⟨hend, hspent⟩
    simp [stopped?, hend, hspent]

lemma describes_of_stopped? (hlimit : s.settings.maxSteps = some limit) {o : Outcome}
    (h : s.stopped? = some o) : Describes limit s.machine o := by
  unfold stopped? at h
  split_ifs at h with hend hspent
  · cases h
    unfold ending
    cases hfault : s.machine.fault? with
    | none => exact .completed hend hfault
    | some f => exact .failed hend hfault
  · cases h
    exact .stepLimit (by simpa using hend) ((isSpent_iff hlimit).mp hspent)

/-- A run ends when its session stops, or with a pause of one that would go on. -/
lemma describes_of_end (hlimit : s.settings.maxSteps = some limit) {o : Outcome}
    (h : s.stopped? = some o ∨ s.stopped? = none ∧ o.isPause = true) :
    Describes limit s.machine o := by
  rcases h with hstop | ⟨hopen, hpause⟩
  · exact describes_of_stopped? hlimit hstop
  · obtain ⟨hrunning, hunspent⟩ := (stopped?_eq_none_iff hlimit).mp hopen
    cases o with
    | paused event => exact .paused hrunning hunspent
    | completed | failed _ | stepLimit | refused _ => cases hpause

end Budget

/-- Only a debugger has an event, and it is still there afterwards. -/
lemma isSome_of_consult {s : Session κ} {d d' : Option Debugger} {event : Option DebugEvent}
    (h : s.consult d = (event, d')) :
    d'.isSome = d.isSome ∧ (event.isSome = true → d.isSome = true) := by
  cases d with
  | none =>
      rw [consult_none] at h
      cases h
      exact ⟨rfl, fun hevent => hevent⟩
  | some d =>
      unfold consult at h
      cases hnext : s.machine.nextPosition <;> rw [hnext] at h <;> cases h <;>
        exact ⟨rfl, fun _ => rfl⟩

variable [Compass κ]

/-- **A budget ends every run.**  The steps that are left decrease from turn to turn. -/
lemma exists_run {s : Session κ} {limit : Nat} (hlimit : s.settings.maxSteps = some limit)
    (d : Option Debugger) : ∃ r, s.run d = some r := by
  induction hleft : limit - s.machine.steps generalizing s d with
  | zero =>
      have hspent : s.stopped? ≠ none := by
        rw [ne_eq, stopped?_eq_none_iff hlimit]
        omega
      obtain ⟨o, ho⟩ := Option.ne_none_iff_exists'.mp hspent
      exact ⟨_, run_of_stopped ho d⟩
  | succ left ih =>
      cases hstop : s.stopped? with
      | some o => exact ⟨_, run_of_stopped hstop d⟩
      | none =>
          rcases hd : s.consult d with ⟨_ | event, d'⟩
          · rw [run_of_moving hstop hlimit hd]
            refine ih (s := s.stepped) hlimit _ ?_
            rw [stepped_steps hstop]
            omega
          · exact ⟨_, run_of_paused hstop hlimit hd⟩

/-- Only a debugger pauses a run, and a run neither takes nor gives one. -/
lemma isSome_of_runWithin {turns : Nat} {s s' : Session κ} {d d' : Option Debugger} {o : Outcome}
    (h : s.runWithin turns d = some (o, s', d')) :
    d'.isSome = d.isSome ∧ (o.isPause = true → d.isSome = true) := by
  induction turns generalizing s d with
  | zero => cases h
  | succ turns ih =>
      rw [runWithin] at h
      cases hstop : s.stopped? with
      | some o' =>
          rw [turn_of_stopped hstop] at h
          cases h
          refine ⟨rfl, fun hpause => ?_⟩
          rw [isPause_of_stopped? hstop] at hpause
          cases hpause
      | none =>
          rcases hd : s.consult d with ⟨_ | event, d₁⟩
          · rw [turn_of_moving hstop hd] at h
            have hrest := ih h
            rw [Option.isSome_map, (isSome_of_consult hd).1] at hrest
            exact hrest
          · rw [turn_of_paused hstop hd] at h
            cases h
            exact ⟨(isSome_of_consult hd).1, fun _ => (isSome_of_consult hd).2 rfl⟩

/-- The numbers of bare steps after which the machine has ended or has used up the budget. -/
def stops (limit : Nat) (m : Machine κ) : Set Nat :=
  {k | (m.run k).hasTerminated = true ∨ limit ≤ (m.run k).steps}

/-- A session goes on after a number of steps exactly if the bare machine does. -/
lemma iterate_stopped?_eq_none_iff {s : Session κ} {limit : Nat}
    (hlimit : s.settings.maxSteps = some limit) (k : Nat) :
    (stepped^[k] s).stopped? = none ↔ k ∉ stops limit s.machine := by
  have hbare := iterate_stepped_machine k s
  have hphase : (stepped^[k] s).machine.phase = (s.machine.run k).phase := congrArg (·.phase) hbare
  have hsteps : (stepped^[k] s).machine.steps = (s.machine.run k).steps := congrArg (·.steps) hbare
  have hsettings : (stepped^[k] s).settings.maxSteps = some limit := by
    rw [iterate_stepped_settings, hlimit]
  rw [stopped?_eq_none_iff hsettings, stops, Set.mem_ofPred_eq, not_or, Nat.not_le,
    Bool.not_eq_true, Machine.hasTerminated, hphase, hsteps]
  rfl

/-- A session that stops for the first time has made the least number of steps. -/
lemma isLeast_of_stopped {s : Session κ} {limit : Nat}
    (hlimit : s.settings.maxSteps = some limit) {k : Nat}
    (hopen : ∀ j < k, (stepped^[j] s).stopped? = none)
    (hstop : (stepped^[k] s).stopped? ≠ none) : IsLeast (stops limit s.machine) k := by
  constructor
  · by_contra hk
    exact hstop ((iterate_stopped?_eq_none_iff hlimit k).mpr hk)
  · intro j hj
    by_contra hlt
    exact (iterate_stopped?_eq_none_iff hlimit j).mp (hopen j (Nat.not_le.mp hlt)) hj

lemma recorded_iterate_stepped {s : Session κ} (h : s.machine.Recorded) (k : Nat) :
    (stepped^[k] s).machine.Recorded := by
  induction k with
  | zero => exact h
  | succ k ih =>
      rw [Function.iterate_succ_apply', stepped_machine]
      exact ih.after [.step]

/-- However a session is used, the phase of its machine and the fault on record agree. -/
lemma Reaches.recorded {fresh s : Session κ} {calls : List HostCall}
    (hfresh : fresh.machine.Recorded) (h : Reaches fresh calls s) : s.machine.Recorded := by
  induction h with
  | fresh => exact hfresh
  | run before h ih =>
      rw [h.eq_iterate]
      exact recorded_iterate_stepped ih _
  | feed before text ih => exact ih
  | step before ih => exact ih.after [.step]

/-- **Runs keep within their budget.**  A run of a session with a budget, without or with any
debugger, returns.  It never passes on a refusal, and leaves the step counter at the budget at
most, unless it was higher before.  The outcome tells how the machine ended, if it did, by the fault
on record; otherwise the budget is used up, or a debugger paused the run before it was.  A run
without debugger makes the least number of steps after which the machine has ended or used up the
budget.  A session that has stopped for another reason than a pause is stopped for good: every
further run has the same outcome and changes nothing.

If the session has come from a fresh one by runs, by feeding its machine and by stepping it, then
the run is completed if and only if the machine has halted, and has failed if and only if a fault
has ended the machine; the fault is the one on record. -/
theorem run_within_budget (s : Session κ) {limit : Nat}
    (hlimit : s.settings.maxSteps = some limit) (d : Option Debugger) :
    ∃ o s' d', s.run d = some (o, s', d') ∧
      (∀ f, o ≠ .refused f) ∧
      s'.machine.steps ≤ max limit s.machine.steps ∧
      (o = .completed ↔ s'.machine.hasTerminated = true ∧ s'.machine.fault? = none) ∧
      (∀ f, o = .failed f ↔ s'.machine.hasTerminated = true ∧ s'.machine.fault? = some f) ∧
      (o = .stepLimit → s'.machine.hasTerminated = false ∧ limit ≤ s'.machine.steps) ∧
      (∀ event, o = .paused event →
        d.isSome = true ∧ s'.machine.hasTerminated = false ∧ s'.machine.steps < limit) ∧
      (d = none → d' = none ∧ ∃ k, IsLeast (stops limit s.machine) k ∧
        s'.machine.silenced = (s.machine.run k).silenced ∧
        s'.machine.steps = s.machine.steps + k) ∧
      (o.isPause = false → ∀ d₂, s'.run d₂ = some (o, s', d₂)) ∧
      ∀ source values settings compass input calls,
        Reaches (start source values settings compass input) calls s →
          (o = .completed ↔ s'.machine.phase = .halted) ∧
            ((∃ f, o = .failed f) ↔ s'.machine.phase = .failed) ∧
            ∀ f, o = .failed f → s'.machine.fault? = some f := by
  obtain ⟨⟨o, s', d'⟩, hrun⟩ := exists_run hlimit d
  obtain ⟨k, hs', hopen, hend⟩ := exists_iterate_of_runWithin hrun
  obtain ⟨hdebugger, hpaused⟩ := isSome_of_runWithin hrun
  have hlimit' : s'.settings.maxSteps = some limit := by
    rw [hs', iterate_stepped_settings, hlimit]
  have hsteps : s'.machine.steps = s.machine.steps + k := by rw [hs', iterate_stepped_steps hopen]
  have hdescribes := describes_of_end hlimit' hend
  refine ⟨o, s', d', hrun, hdescribes.ne_refused, ?_, hdescribes.completed_iff,
    hdescribes.failed_iff, ?_, ?_, ?_, ?_, ?_⟩
  · have hturns := lt_turnLimit hopen (Or.inl (by rw [hlimit]; rfl))
    simp only [turnLimit, hlimit] at hturns
    omega
  · rintro rfl
    cases hdescribes with
    | stepLimit hrunning hspent => exact ⟨hrunning, hspent⟩
  · rintro event rfl
    cases hdescribes with
    | paused hrunning hunspent => exact ⟨hpaused rfl, hrunning, hunspent⟩
  · rintro rfl
    have hstop : s'.stopped? ≠ none := by
      rcases hend with hstop | ⟨-, hpause⟩
      · simp [hstop]
      · exact absurd (hpaused hpause) (by simp)
    rw [hs'] at hstop
    refine ⟨by simpa using hdebugger, k, isLeast_of_stopped hlimit hopen hstop, ?_, hsteps⟩
    rw [hs', iterate_stepped_machine]
  · intro hpause d₂
    rcases hend with hstop | ⟨-, hp⟩
    · exact run_of_stopped hstop d₂
    · rw [hpause] at hp
      cases hp
  · intro source values settings compass input calls hs
    have hrecorded : s'.machine.Recorded :=
      (hs.run ⟨_, hrun⟩).recorded (Machine.recorded_load source values compass)
    refine ⟨hdescribes.completed_iff.trans hrecorded.halted_iff.symm, ⟨?_, fun hphase => ?_⟩,
      fun f hf => ((hdescribes.failed_iff f).mp hf).2⟩
    · rintro ⟨f, hf⟩
      exact hrecorded.phase_eq ((hdescribes.failed_iff f).mp hf).2
    · obtain ⟨f, hf⟩ := Option.isSome_iff_exists.mp (hrecorded.mp hphase)
      have hended : s'.machine.hasTerminated = true := by
        rw [Machine.hasTerminated, hphase, Phase.isFinal]
      exact ⟨f, (hdescribes.failed_iff f).mpr ⟨hended, hf⟩⟩

/-- A budget of three steps for a program of five.  The run stops at three, and a debugger that
would pause makes no difference any more. -/
theorem run_within_budget_of_three :
    let s := start "1n2n;" [] { maxSteps := some 3 } (⟨[]⟩ : Script) ""
    ∃ s', s.run none = some (.stepLimit, s', none) ∧
      s'.machine.hasTerminated = false ∧ 3 ≤ s'.machine.steps ∧ s'.machine.steps ≤ max 3 0 ∧
      s'.run (some .paused) = some (.stepLimit, s', some .paused) := by
  intro s
  obtain ⟨o, s', d', hrun, -, hbound, -, -, hlimit, -, hfree, hagain, -⟩ :=
    run_within_budget s (show s.settings.maxSteps = some 3 from rfl) none
  have houtcome : (s.run none).map (·.1) = some .stepLimit := by decide +kernel
  obtain rfl : o = .stepLimit := by simpa [hrun] using houtcome
  obtain ⟨rfl, -⟩ := hfree rfl
  exact ⟨s', hrun, (hlimit rfl).1, (hlimit rfl).2, hbound, hagain rfl _⟩

end Session

end Aquarium
