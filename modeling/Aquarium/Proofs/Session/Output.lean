import Aquarium.Proofs.Machine.Traffic
import Aquarium.Proofs.Session.Transparency

/-!
# What a run shows of the output

A run collects the emissions of its machine after each of its own steps.  A host can also step the
machine of a session directly, and then emissions wait in the machine until the next step of a
run.  A run that makes no step, because the machine has ended, the budget is used up or a debugger
pauses at once, returns without them.

`Reaches` is a session after any such use, with the calls that its machine has seen.  Nothing is
lost: what the session has collected, and then what waits in its machine, is everything that was
printed (`Tracks`).  But the session has collected everything only if nothing was waiting when the
run began, or the run made a step (`collected_iff_nothing_waited`), and it may be that it has
collected nothing of a program that has completed (`completed_run_shows_nothing`).
-/

namespace Aquarium

namespace Session

variable {κ : Type} [Compass κ]

/-- A session that has come from a fresh one by runs, by feeding its machine and by stepping it
directly, with the calls that the machine has seen in the meantime. -/
inductive Reaches (fresh : Session κ) : List HostCall → Session κ → Prop
  | fresh : Reaches fresh [] fresh
  | run {calls : List HostCall} {s s' : Session κ} {d d' : Option Debugger} {o : Outcome}
      (before : Reaches fresh calls s) (h : s.Returns d (o, s', d')) :
      Reaches fresh (calls ++ List.replicate (s'.machine.steps - s.machine.steps) .step) s'
  | feed {calls : List HostCall} {s : Session κ} (before : Reaches fresh calls s)
      (text : String) :
      Reaches fresh (calls ++ [.feed text]) { s with machine := s.machine.feed text }
  | step {calls : List HostCall} {s : Session κ} (before : Reaches fresh calls s) :
      Reaches fresh (calls ++ [.step]) { s with machine := HostCall.step.apply s.machine }

/-- The session has the machine that the calls lead to, apart from the output, and has all that
was printed, collected or not. -/
structure Tracks (m : Machine κ) (calls : List HostCall) (s : Session κ) : Prop where
  machine_eq : s.machine.silenced = (m.after calls).silenced
  output_eq : s.output.toList ++ s.machine.output.items = m.history HostCall.emits calls

namespace Tracks

variable {m : Machine κ} {calls : List HostCall} {s : Session κ}

lemma step (h : Tracks m calls s) :
    Tracks m (calls ++ [.step]) { s with machine := HostCall.step.apply s.machine } := by
  -- What a step prints does not depend on the output.
  have hprints : s.machine.prints = (m.after calls).prints := by
    show s.machine.silenced.prints = (m.after calls).silenced.prints
    rw [h.machine_eq]
  constructor
  · rw [Machine.after_append, Machine.silenced_apply_step, h.machine_eq,
      ← Machine.silenced_apply_step]
    rfl
  · rw [Machine.history_append, ← h.output_eq, (HostCall.served_apply_step s.machine).output_eq,
      hprints, List.append_assoc]
    simp only [Machine.history, HostCall.emits, if_true, List.append_nil]

lemma feed (h : Tracks m calls s) (text : String) :
    Tracks m (calls ++ [.feed text]) { s with machine := s.machine.feed text } := by
  constructor
  · rw [Machine.after_append]
    show s.machine.silenced.feed text = ((m.after calls).silenced).feed text
    rw [h.machine_eq]
  · rw [Machine.history_append, ← h.output_eq]
    exact (List.append_nil _).symm

lemma collect (h : Tracks m calls s) : Tracks m calls s.collect := by
  constructor
  · rw [← h.machine_eq, collect_machine]
    rfl
  · rw [← h.output_eq, collect_output, collect_machine, List.append_nil]

lemma iterate (h : Tracks m calls s) (k : Nat) :
    Tracks m (calls ++ List.replicate k .step) (stepped^[k] s) := by
  induction k with
  | zero => simpa using h
  | succ k ih =>
      rw [Function.iterate_succ_apply', List.replicate_succ', ← List.append_assoc]
      exact ih.step.collect

end Tracks

/-- A run is as many steps as it has counted. -/
lemma Returns.eq_iterate {s s' : Session κ} {d d' : Option Debugger} {o : Outcome}
    (h : s.Returns d (o, s', d')) : s' = stepped^[s'.machine.steps - s.machine.steps] s := by
  obtain ⟨turns, hrun⟩ := h
  obtain ⟨k, hs', hopen, -⟩ := exists_iterate_of_runWithin hrun
  have hsteps : s'.machine.steps = s.machine.steps + k := by rw [hs', iterate_stepped_steps hopen]
  rw [hsteps, Nat.add_sub_cancel_left]
  exact hs'

lemma Tracks.run {m : Machine κ} {calls : List HostCall} {s s' : Session κ}
    {d d' : Option Debugger} {o : Outcome} (h : Tracks m calls s) (hrun : s.Returns d (o, s', d')) :
    Tracks m (calls ++ List.replicate (s'.machine.steps - s.machine.steps) .step) s' := by
  have hsteps := h.iterate (s'.machine.steps - s.machine.steps)
  rwa [← hrun.eq_iterate] at hsteps

/-- However a session is used, all that its machine has printed is still there. -/
lemma Reaches.tracks {fresh s : Session κ} {calls : List HostCall}
    (hfresh : Tracks fresh.machine [] fresh) (h : Reaches fresh calls s) :
    Tracks fresh.machine calls s := by
  induction h with
  | fresh => exact hfresh
  | run before h ih => exact ih.run h
  | feed before text ih => exact ih.feed text
  | step before ih => exact ih.step

/-- After a run, something waits in the machine exactly if it did before and the run made no
step. -/
lemma Returns.pending_iff {s s' : Session κ} {d d' : Option Debugger} {o : Outcome}
    (h : s.Returns d (o, s', d')) :
    s'.machine.output.items = [] ↔
      s.machine.output.items = [] ∨ s.machine.steps < s'.machine.steps := by
  have hs' := h.eq_iterate
  cases hk : s'.machine.steps - s.machine.steps with
  | zero =>
      rw [hk, Function.iterate_zero_apply] at hs'
      rw [hs']
      simp
  | succ k =>
      rw [hk, Function.iterate_succ_apply'] at hs'
      have hnone : s'.machine.output.items = [] := by rw [hs', stepped_machine]
      simp only [hnone, true_iff]
      right
      omega

/-- **A run shows what was printed before its last step.**  Let a session be used in any way by
runs, feeding and direct steps, and then run.  What it has collected after that, and then what
waits in its machine, is everything printed since the program was loaded, in order.  It has
collected everything if and only if nothing waited when the run began or the run made a step. -/
theorem collected_iff_nothing_waited (source : String) (values : List Float) (settings : Settings)
    (compass : κ) (input : String) {calls : List HostCall} {s s' : Session κ}
    {d d' : Option Debugger} {o : Outcome}
    (hs : Reaches (start source values settings compass input) calls s)
    (hrun : s.Returns d (o, s', d')) :
    let fresh := start source values settings compass input
    let printed := fresh.machine.history HostCall.emits
      (calls ++ List.replicate (s'.machine.steps - s.machine.steps) .step)
    s'.output.toList ++ s'.machine.output.items = printed ∧
      (s'.output.toList = printed ↔
        s.machine.output.items = [] ∨ s.machine.steps < s'.machine.steps) := by
  intro fresh printed
  have hall : s'.output.toList ++ s'.machine.output.items = printed :=
    ((hs.tracks ⟨rfl, rfl⟩).run hrun).output_eq
  refine ⟨hall, ?_⟩
  rw [← hrun.pending_iff, ← hall]
  exact List.self_eq_append_right

/-- Two direct steps print a number, and the run that makes the other steps collects it with the
second one. -/
theorem collected_iff_nothing_waited_run_goes_on :
    let fresh := start "1n2n;" [] {} (⟨[]⟩ : Script) ""
    ∃ s s', Reaches fresh [.step, .step] s ∧ s.Returns none (.completed, s', none) ∧
      s.machine.output.items = [.number (Number.ofNat 1)] ∧
      s'.output.toList = [.number (Number.ofNat 1), .number (Number.ofNat 2)] ∧
      s'.output.toList = fresh.machine.history HostCall.emits
        ([.step, .step] ++ List.replicate (s'.machine.steps - s.machine.steps) .step) := by
  intro fresh
  have hfresh : Reaches fresh [] fresh := .fresh
  have hrun : Session.runWithin 4
      { fresh with machine := HostCall.step.apply (HostCall.step.apply fresh.machine) } none =
        some (.completed, _, none) :=
    runWithin_none (k := 3) (by decide +kernel) (by decide +kernel) (by decide)
  have hcollected := collected_iff_nothing_waited "1n2n;" [] {} (⟨[]⟩ : Script) ""
    hfresh.step.step ⟨4, hrun⟩
  exact ⟨_, _, hfresh.step.step, ⟨4, hrun⟩, by decide +kernel, by decide +kernel,
    hcollected.2.mpr (Or.inr (by decide +kernel))⟩

/-- A program that prints a number and ends, brought to its end by direct steps.  The run finds it
completed and returns at once: the number was printed, but the session has collected nothing. -/
theorem completed_run_shows_nothing :
    let fresh := start "1n;" [] {} (⟨[]⟩ : Script) ""
    ∃ s, Reaches fresh [.step, .step, .step] s ∧ s.run none = some (.completed, s, none) ∧
      fresh.machine.history HostCall.emits [.step, .step, .step] = [.number (Number.ofNat 1)] ∧
      s.output.toList = [] := by
  intro fresh
  have hfresh : Reaches fresh [] fresh := .fresh
  exact ⟨_, hfresh.step.step.step, run_of_stopped (by decide +kernel) none, by decide +kernel, rfl⟩

end Session

end Aquarium
