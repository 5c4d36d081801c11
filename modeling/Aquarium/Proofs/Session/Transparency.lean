import Aquarium.Proofs.Machine.Queues
import Aquarium.Proofs.Session.Turns

/-!
# Pausing changes nothing

A debugger decides when a run stops, and nothing else.  However a program is run, in one go or in
pieces, with breakpoints, single steps or pauses, its session is that of the bare machine after as
many steps as were made (`iterate_stepped_machine`), with the emissions of these steps collected
in order (`iterate_stepped_emissions`).  The first run that is not paused ends as a single run
without debugger would have ended.

* `Returns` is a run that comes to an end, after whatever number of turns.
* `Runs` is a sequence of such runs.  Each has a debugger of its own or none.  It may be the one
  that an earlier run has left, changed by any commands, or another one.
-/

namespace Aquarium

namespace Session

variable {κ : Type} [Compass κ]

/-! ## Steps of the session and of the machine -/

/-- Apart from the output, the machine of a session makes the steps of the bare machine. -/
lemma iterate_stepped_machine (k : Nat) (s : Session κ) :
    (stepped^[k] s).machine.silenced = (s.machine.run k).silenced := by
  induction k with
  | zero => rfl
  | succ k ih =>
      rw [Function.iterate_succ_apply', Machine.run_succ, Machine.silenced_apply_step, ← ih,
        ← Machine.silenced_apply_step, stepped_machine]
      rfl

/-- Nothing that the bare machine emits is lost, repeated or moved. -/
lemma iterate_stepped_emissions (k : Nat) (s : Session κ) :
    (stepped^[k] s).output.toList ++ (stepped^[k] s).machine.output.items =
      s.output.toList ++ (s.machine.run k).output.items := by
  induction k with
  | zero => rfl
  | succ k ih =>
      rw [Function.iterate_succ_apply', Machine.run_succ, Machine.output_apply_step,
        ← List.append_assoc, ← ih, ← iterate_stepped_machine]
      simp only [stepped, collect_output, collect_machine, List.append_nil, List.append_assoc]
      rw [Machine.output_apply_step]

/-- No emission waits in the machine of a session, unless it did from the start. -/
lemma iterate_stepped_pending (k : Nat) {s : Session κ} (h : s.machine.output = {}) :
    (stepped^[k] s).machine.output = {} := by
  cases k with
  | zero => exact h
  | succ k =>
      rw [Function.iterate_succ_apply', stepped_machine]

/-! ## Sequences of runs -/

/-- A run returns the given result, after some number of turns. -/
def Returns (s : Session κ) (d : Option Debugger) (r : Outcome × Session κ × Option Debugger) :
    Prop := ∃ turns, s.runWithin turns d = some r

/-- Runs one after the other, with the given debuggers and outcomes. -/
inductive Runs : Session κ → List (Option Debugger) → List Outcome → Session κ → Prop
  | nil (s : Session κ) : Runs s [] [] s
  | cons {s s' s'' : Session κ} {d d' : Option Debugger} {o : Outcome}
      {ds : List (Option Debugger)} {os : List Outcome} (first : s.Returns d (o, s', d'))
      (rest : Runs s' ds os s'') : Runs s (d :: ds) (o :: os) s''

/-- Runs of a session are steps that a run without debugger would make too, and a run among them
that was not paused found the session stopped.  No later run can have moved it. -/
lemma Runs.exists_iterate {s s' : Session κ} {ds : List (Option Debugger)} {os : List Outcome}
    (h : Runs s ds os s') :
    ∃ k, s' = stepped^[k] s ∧ (∀ j < k, (stepped^[j] s).stopped? = none) ∧
      ∀ o ∈ os, o.isPause = false → s'.stopped? = some o := by
  induction h with
  | nil s =>
      refine ⟨0, rfl, fun j hj => absurd hj (Nat.not_lt_zero j), ?_⟩
      intro o ho
      cases ho
  | @cons s s' s'' d d' o ds os first rest ih =>
      obtain ⟨turns, hrun⟩ := first
      obtain ⟨k, hs', hopen, hend⟩ := exists_iterate_of_runWithin hrun
      obtain ⟨l, hs'', hopen', hend'⟩ := ih
      refine ⟨l + k, ?_, ?_, ?_⟩
      · rw [Function.iterate_add_apply, ← hs', hs'']
      · intro j hj
        by_cases hjk : j < k
        · exact hopen j hjk
        · obtain ⟨i, rfl⟩ := Nat.exists_eq_add_of_le (Nat.le_of_not_lt hjk)
          rw [Nat.add_comm, Function.iterate_add_apply, ← hs']
          exact hopen' i (by omega)
      · intro o' ho' hpause
        rcases List.mem_cons.mp ho' with rfl | hlater
        · rcases hend with hstop | ⟨-, hp⟩
          · -- The later runs started from a stopped session, so they made no step.
            obtain rfl : l = 0 := by
              by_contra hl
              have hmoved := hopen' 0 (Nat.pos_of_ne_zero hl)
              rw [Function.iterate_zero_apply, hstop] at hmoved
              cases hmoved
            rw [hs'']
            exact hstop
          · rw [hp] at hpause
            cases hpause
        · exact hend' o' hlater hpause

/-- **Debuggers are transparent.**  After any runs of a fresh session, its machine is, apart from
the output, that of the program after `k` bare steps, where `k` is the number of steps counted;
the session has collected the emissions of these steps, and none is left in the machine.  Every
run that was not paused, the first one included, ended with the outcome, and left the session, of
a single run without debugger.  (A session without budget answers nothing after `2 ^ 64` steps,
which no counter of 64 bits can count.) -/
theorem runs_transparent (source : String) (values : List Float) (settings : Settings)
    (compass : κ) (input : String) {ds : List (Option Debugger)} {os : List Outcome}
    {s : Session κ} (h : Runs (start source values settings compass input) ds os s) :
    let fresh := start source values settings compass input
    let k := s.machine.steps
    s.machine = { fresh.machine.run k with output := {} } ∧
      s.output.toList = (fresh.machine.run k).output.items ∧
      s.machine.output.items = [] ∧
      ∀ o ∈ os, o.isPause = false →
        fresh.Returns none (o, s, none) ∧
          (settings.maxSteps.isSome ∨ k < 2 ^ 64 → fresh.run none = some (o, s, none)) := by
  intro fresh k
  obtain ⟨l, hs, hopen, hend⟩ := h.exists_iterate
  have hl : l = k := by
    have hsteps := iterate_stepped_steps hopen
    rw [← hs] at hsteps
    exact (hsteps.trans (Nat.zero_add l)).symm
  have hpending : s.machine.output = {} := by
    rw [hs]
    exact iterate_stepped_pending l rfl
  have hmachine : s.machine.silenced = (fresh.machine.run k).silenced := by
    rw [← hl, ← iterate_stepped_machine, ← hs]
  have hemissions : s.output.toList = (fresh.machine.run k).output.items := by
    have hall := iterate_stepped_emissions l fresh
    have hempty : fresh.output.toList = [] := rfl
    rw [← hs, hpending, hl, hempty] at hall
    simpa using hall
  refine ⟨?_, hemissions, by rw [hpending], ?_⟩
  · calc s.machine
        = s.machine.silenced := by rw [Machine.silenced, ← hpending]
      _ = (fresh.machine.run k).silenced := hmachine
  · intro o ho hpause
    have hstop : (stepped^[l] fresh).stopped? = some o := by
      rw [← hs]
      exact hend o ho hpause
    refine ⟨⟨l + 1, ?_⟩, ?_⟩
    · rw [runWithin_none hopen hstop (Nat.lt_succ_self l), ← hs]
    · intro hbound
      rw [← hl] at hbound
      rw [run, runWithin_none hopen hstop (lt_turnLimit hopen hbound), ← hs]

/-- A program that is first held, then made to do a single step, then run to its end. -/
theorem runs_transparent_held_then_stepped :
    let fresh := start "1n2n;" [] {} (⟨[]⟩ : Script) ""
    let ds := [some Debugger.paused, some Debugger.paused.stepInto, none]
    ∃ s, Runs fresh ds [.paused .paused, .paused .step, .completed] s ∧
      s.output.toList = [.number (Number.ofNat 1), .number (Number.ofNat 2)] ∧
      s.machine = { fresh.machine.run 5 with output := {} } ∧
      fresh.run none = some (.completed, s, none) := by
  intro fresh ds
  have hheld : fresh.consult (some Debugger.paused) =
      (some .paused, some { Debugger.paused with lastPause := some (0, 0) }) := by decide +kernel
  have hfirst : fresh.Returns (some Debugger.paused)
      (.paused .paused, fresh, some { Debugger.paused with lastPause := some (0, 0) }) := by
    refine ⟨1, ?_⟩
    rw [runWithin, turn_of_paused (by decide +kernel) hheld]
  have hfree : fresh.consult (some Debugger.paused.stepInto) =
      (none, some Debugger.paused.stepInto) := by decide +kernel
  have hagain : fresh.stepped.consult (some Debugger.paused.stepInto.markExecuted) =
      (some .step, some { Debugger.paused with lastPause := some (1, 0) }) := by decide +kernel
  have hsecond : fresh.Returns (some Debugger.paused.stepInto)
      (.paused .step, fresh.stepped, some { Debugger.paused with lastPause := some (1, 0) }) := by
    refine ⟨2, ?_⟩
    rw [runWithin, turn_of_moving (by decide +kernel) hfree]
    simp only [Option.map_some]
    rw [runWithin, turn_of_paused (by decide +kernel) hagain]
  have hthird : fresh.stepped.Returns none (.completed, stepped^[4] fresh.stepped, none) :=
    ⟨5, runWithin_none (by decide +kernel) (by decide +kernel) (by decide)⟩
  have hruns := Runs.cons hfirst (.cons hsecond (.cons hthird (.nil _)))
  have htransparent := runs_transparent "1n2n;" [] {} (⟨[]⟩ : Script) "" hruns
  have hsteps : (stepped^[4] fresh.stepped).machine.steps = 5 := by decide +kernel
  refine ⟨_, hruns, by decide +kernel, ?_, ?_⟩
  · rw [← hsteps]
    exact htransparent.1
  · exact (htransparent.2.2.2 .completed (by simp) rfl).2 (Or.inl rfl)

end Session

end Aquarium
