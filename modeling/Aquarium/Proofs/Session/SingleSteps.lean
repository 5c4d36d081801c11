import Aquarium.Proofs.Session.Breakpoints

/-!
# Single steps

A user starts with a debugger that is paused, and gives a command after every pause
(`transcript`).  Without commands nothing ever happens.  With the command to step, every run makes
one step, and the positions shown at the pauses are those of the cells executed.

What carries the proof is that a paused debugger has seen no step since its pause (`Waiting`).
Such a debugger holds the session (`run_of_waiting`).  Told to step, it lets one step pass
(`run_stepInto`) and pauses again.  Breakpoints are never looked at on the way.
-/

namespace Aquarium

namespace Debugger

/-- A debugger that is paused, and has seen no step since. -/
structure Waiting (d : Debugger) : Prop where
  paused : d.mode = .paused
  unmoved : d.executed = false

lemma waiting_foldl_addBreakpoint (positions : List Position) :
    (positions.foldl addBreakpoint .paused).Waiting := by
  obtain ⟨qs, hqs⟩ := foldl_addBreakpoint positions .paused
  rw [hqs]
  exact ⟨rfl, rfl⟩

/-- A waiting debugger takes note of the position, and goes on waiting. -/
lemma Waiting.withLastPause {d : Debugger} (h : d.Waiting) (p : Position) :
    Waiting { d with lastPause := some p } := ⟨h.paused, h.unmoved⟩

lemma check_of_waiting {d : Debugger} (h : d.Waiting) (p : Position) :
    d.check p = (some .paused, { d with lastPause := some p }) := by
  simp only [check, h.paused, h.unmoved, Bool.false_eq_true, if_false]

lemma check_stepInto (d : Debugger) (p : Position) : d.stepInto.check p = (none, d.stepInto) := rfl

/-- After the step a stepping debugger pauses, with or without breakpoint. -/
lemma check_markExecuted_stepInto (d : Debugger) (p : Position) :
    d.stepInto.markExecuted.check p = (some .step, d.stepInto.markExecuted.pauseAt p) := rfl

end Debugger

namespace Session

variable {κ : Type} [Compass κ]

/-! ## Positions in front of the steps -/

/-- On a grid with cells there is always a next position. -/
lemma nextPosition_iterate_stepped {width height : Nat} (hw : 0 < width) (hh : 0 < height)
    {s : Session κ} (h : s.machine.Shaped width height) (k : Nat) :
    (stepped^[k] s).machine.nextPosition = some (stepped^[k] s).machine.fetchPosition := by
  have hshaped : (stepped^[k] s).machine.Shaped width height := by
    induction k with
    | zero => exact h
    | succ k ih =>
        rw [Function.iterate_succ_apply']
        exact shaped_stepped ih
  exact Machine.nextPosition_of_isSome (hshaped.isSome_nextPosition hw hh)

/-- The cells that the next steps look at are those in front of the sessions on the way. -/
lemma fetched_eq_map_range {n : Nat} {s : Session κ}
    (hopen : ∀ j < n, (stepped^[j] s).stopped? = none) :
    s.machine.fetched n = (List.range n).map fun j => (stepped^[j] s).machine.fetchPosition := by
  induction n generalizing s with
  | zero => rfl
  | succ n ih =>
      have hfirst : s.stopped? = none := hopen 0 n.succ_pos
      rw [fetched_succ hfirst, List.range_succ_eq_map, List.map_cons, List.map_map,
        ih fun j hj => hopen (j + 1) (Nat.succ_lt_succ hj)]
      rfl

/-! ## Single runs -/

/-- A waiting debugger holds the session. -/
lemma run_of_waiting {s : Session κ} (h : s.stopped? = none) {p : Position}
    (hp : s.machine.nextPosition = some p) {d : Debugger} (hd : d.Waiting) :
    s.run (some d) = some (.paused .paused, s, some { d with lastPause := some p }) := by
  have hconsult := consult_some hp d
  rw [Debugger.check_of_waiting hd] at hconsult
  have hturns : 0 < s.turnLimit :=
    lt_turnLimit (fun j hj => absurd hj (Nat.not_lt_zero j)) (Or.inr (by decide))
  obtain ⟨turns, hturns⟩ := Nat.exists_eq_add_of_lt hturns
  rw [run, hturns, Nat.zero_add, runWithin, turn_of_paused h hconsult]

/-- A debugger told to step lets one step pass, and is asked again after it. -/
lemma run_stepInto {s : Session κ} (h : s.stopped? = none) {p : Position}
    (hp : s.machine.nextPosition = some p) (d : Debugger) :
    ∃ turns, s.run (some d.stepInto) =
      s.stepped.runWithin (turns + 1) (some d.stepInto.markExecuted) := by
  have hconsult := consult_some hp d.stepInto
  rw [Debugger.check_stepInto] at hconsult
  have hturns : 1 < s.turnLimit := by
    refine lt_turnLimit (fun j hj => ?_) (Or.inr (by decide))
    obtain rfl : j = 0 := by omega
    exact h
  obtain ⟨turns, hturns⟩ := Nat.exists_eq_add_of_le' (Nat.succ_le_of_lt hturns)
  refine ⟨turns, ?_⟩
  have hmove := turn_of_moving h hconsult
  rw [run, hturns, runWithin, hmove]
  rfl

/-- If the session can go on after the step, the run is paused there. -/
lemma run_stepInto_of_open {s : Session κ} (h : s.stopped? = none) {p q : Position}
    (hp : s.machine.nextPosition = some p) (h' : s.stepped.stopped? = none)
    (hq : s.stepped.machine.nextPosition = some q) (d : Debugger) :
    s.run (some d.stepInto) =
      some (.paused .step, s.stepped, some (d.stepInto.markExecuted.pauseAt q)) := by
  have hconsult := consult_some hq d.stepInto.markExecuted
  rw [Debugger.check_markExecuted_stepInto] at hconsult
  obtain ⟨turns, hrun⟩ := run_stepInto h hp d
  rw [hrun, runWithin, turn_of_paused h' hconsult]

/-- If the session stops on its own after the step, so does the run. -/
lemma run_stepInto_of_stopped {s : Session κ} (h : s.stopped? = none) {p : Position}
    (hp : s.machine.nextPosition = some p) {o : Outcome} (h' : s.stepped.stopped? = some o)
    (d : Debugger) :
    s.run (some d.stepInto) = some (o, s.stepped, some d.stepInto.markExecuted) := by
  obtain ⟨turns, hrun⟩ := run_stepInto h hp d
  rw [hrun, runWithin, turn_of_stopped h']

/-! ## Runs with a command after every pause -/

/-- Without commands, a waiting debugger holds the session for ever. -/
lemma transcript_id {s : Session κ} (h : s.stopped? = none) {p : Position}
    (hp : s.machine.nextPosition = some p) (n : Nat) {d : Debugger} (hd : d.Waiting) :
    s.transcript id n d = List.replicate n (.paused .paused, s) := by
  induction n generalizing d with
  | zero => rfl
  | succ n ih =>
      rw [transcript_of_paused (run_of_waiting h hp hd), id, ih (hd.withLastPause p),
        List.replicate_succ]

/-- The outcomes of `n` runs that are told to step, in front of the runs that follow. -/
lemma exists_transcript_stepInto {n : Nat} {s : Session κ}
    (hopen : ∀ j ≤ n, (stepped^[j] s).stopped? = none)
    (hnext : ∀ j, (stepped^[j] s).machine.nextPosition =
      some (stepped^[j] s).machine.fetchPosition) (calls : Nat) (d : Debugger) :
    ∃ d' : Debugger, s.transcript Debugger.stepInto (n + calls) d.stepInto =
      ((List.range n).map fun j => (.paused .step, stepped^[j + 1] s)) ++
        (stepped^[n] s).transcript Debugger.stepInto calls d'.stepInto := by
  induction n generalizing s d with
  | zero => exact ⟨d, by rw [Nat.zero_add]; rfl⟩
  | succ n ih =>
      have hfirst : s.stopped? = none := hopen 0 n.succ.zero_le
      have hsecond : s.stepped.stopped? = none := hopen 1 (Nat.succ_le_succ n.zero_le)
      have hposition : s.stepped.machine.nextPosition =
          some s.stepped.machine.fetchPosition := hnext 1
      have hrun := run_stepInto_of_open hfirst (hnext 0) hsecond hposition d
      obtain ⟨d', hrest⟩ := ih (s := s.stepped)
        (fun j hj => hopen (j + 1) (Nat.succ_le_succ hj)) (fun j => hnext (j + 1))
        (d.stepInto.markExecuted.pauseAt s.stepped.machine.fetchPosition)
      refine ⟨d', ?_⟩
      rw [Nat.add_right_comm, transcript_of_paused hrun, hrest, List.range_succ_eq_map,
        List.map_cons, List.map_map]
      rfl

/-- The pauses of `n` runs, the first of them before any command and the others after a step
each. -/
def stepPauses (s : Session κ) (n : Nat) : List (Outcome × Session κ) :=
  (List.range n).map fun j => (.paused (if j = 0 then .paused else .step), stepped^[j] s)

/-- What the user sees at the pauses are the positions of the cells executed. -/
lemma map_nextPosition_stepPauses {n : Nat} {s : Session κ}
    (hopen : ∀ j < n, (stepped^[j] s).stopped? = none)
    (hnext : ∀ j, (stepped^[j] s).machine.nextPosition =
      some (stepped^[j] s).machine.fetchPosition) :
    (s.stepPauses n).map (fun r => r.2.machine.nextPosition) = (s.machine.fetched n).map some := by
  rw [stepPauses, fetched_eq_map_range hopen, List.map_map, List.map_map]
  exact List.map_congr_left fun j _ => hnext j

/-- Single-stepping as long as the session can go on, in front of the runs that follow. -/
lemma exists_transcript_stepPauses {n : Nat} {s : Session κ}
    (hopen : ∀ j ≤ n, (stepped^[j] s).stopped? = none)
    (hnext : ∀ j, (stepped^[j] s).machine.nextPosition =
      some (stepped^[j] s).machine.fetchPosition) (calls : Nat) {d : Debugger} (hd : d.Waiting) :
    ∃ d' : Debugger, s.transcript Debugger.stepInto (n + 1 + calls) d =
      s.stepPauses (n + 1) ++ (stepped^[n] s).transcript Debugger.stepInto calls d'.stepInto := by
  obtain ⟨d', hrest⟩ := exists_transcript_stepInto hopen hnext calls
    { d with lastPause := some s.machine.fetchPosition }
  have hfirst : s.stopped? = none := hopen 0 n.zero_le
  have hposition : s.machine.nextPosition = some s.machine.fetchPosition := hnext 0
  refine ⟨d', ?_⟩
  rw [Nat.add_right_comm, transcript_of_paused (run_of_waiting hfirst hposition hd), hrest,
    stepPauses, List.range_succ_eq_map, List.map_cons, List.map_map]
  rfl

lemma transcript_eq_stepPauses {n : Nat} {s : Session κ}
    (hopen : ∀ j < n, (stepped^[j] s).stopped? = none)
    (hnext : ∀ j, (stepped^[j] s).machine.nextPosition =
      some (stepped^[j] s).machine.fetchPosition) {d : Debugger} (hd : d.Waiting) :
    s.transcript Debugger.stepInto n d = s.stepPauses n := by
  cases n with
  | zero => rfl
  | succ n =>
      obtain ⟨d', hpauses⟩ := exists_transcript_stepPauses
        (fun j hj => hopen j (Nat.lt_succ_of_le hj)) hnext 0 hd
      rw [Nat.add_zero] at hpauses
      rw [hpauses, transcript, List.append_nil]

/-- The step after which a session stops on its own is not followed by a pause. -/
lemma transcript_eq_stepPauses_append {k n : Nat} {s : Session κ}
    (hopen : ∀ j < k + 1, (stepped^[j] s).stopped? = none) {o : Outcome}
    (hstop : (stepped^[k + 1] s).stopped? = some o)
    (hnext : ∀ j, (stepped^[j] s).machine.nextPosition =
      some (stepped^[j] s).machine.fetchPosition) (hn : k + 1 < n) {d : Debugger}
    (hd : d.Waiting) :
    s.transcript Debugger.stepInto n d = s.stepPauses (k + 1) ++ [(o, stepped^[k + 1] s)] := by
  obtain ⟨calls, rfl⟩ := Nat.exists_eq_add_of_lt hn
  obtain ⟨d', hpauses⟩ := exists_transcript_stepPauses
    (fun j hj => hopen j (Nat.lt_succ_of_le hj)) hnext (calls + 1) hd
  have hpause := isPause_of_stopped? hstop
  rw [Function.iterate_succ_apply'] at hstop ⊢
  have hlast := run_stepInto_of_stopped (hopen k k.lt_succ_self) (hnext k) hstop d'
  rw [Nat.add_assoc, hpauses, transcript_of_stopped hlast hpause]

/-- **Single steps walk the program.**  A session on a grid with columns, whose machine is any that
a host can reach, has not ended and is below its budget, if it has one.  It is run with a paused
debugger that was given breakpoints.

* Without commands every run is paused at once, and leaves the session as it was.
* With the command to step before every run but the first, the first run is paused at once, and
  every other one after a step, whatever the breakpoints.  When the session stops on its own after
  `k` steps, the run that made the last of them says so, and is the last one.
* The positions in front of the pauses are those of the cells executed, one for each step.
* The session after `j` steps has counted `j` steps more, and its machine is, apart from the
  output, the bare machine after `j` steps. -/
theorem single_steps_walk_program (source : String) (values : List Float) (compass : κ)
    (calls : List HostCall) {s : Session κ}
    (hs : s.machine = (Machine.load source values compass).after calls)
    (hwidth : 0 < s.machine.grid.width) (hrunning : s.machine.hasTerminated = false)
    (hbelow : ∀ limit, s.settings.maxSteps = some limit → s.machine.steps < limit)
    (positions : List Position) :
    let d := positions.foldl Debugger.addBreakpoint .paused
    (∀ n, s.transcript id n d = List.replicate n (.paused .paused, s)) ∧
      (∀ n, (∀ j < n, (stepped^[j] s).stopped? = none) →
        s.transcript Debugger.stepInto n d = s.stepPauses n ∧
        (s.stepPauses n).map (fun r => r.2.machine.nextPosition) =
          (s.machine.fetched n).map some) ∧
      (∀ k o, (∀ j < k, (stepped^[j] s).stopped? = none) → (stepped^[k] s).stopped? = some o →
        o.isPause = false ∧
        ∀ n, k < n →
          s.transcript Debugger.stepInto n d = s.stepPauses k ++ [(o, stepped^[k] s)]) ∧
      ∀ j, (∀ i < j, (stepped^[i] s).stopped? = none) →
        (stepped^[j] s).machine.steps = s.machine.steps + j ∧
        (stepped^[j] s).machine.silenced = (s.machine.run j).silenced := by
  intro d
  have hopen : s.stopped? = none := stopped?_eq_none hrunning hbelow
  have hwaiting : d.Waiting := Debugger.waiting_foldl_addBreakpoint positions
  have hnext (j : Nat) : (stepped^[j] s).machine.nextPosition =
      some (stepped^[j] s).machine.fetchPosition := by
    have hshaped := (Machine.shaped_load source values compass).after calls
    rw [← hs] at hshaped
    exact nextPosition_iterate_stepped (hshaped.width_eq ▸ hwidth)
      (Grid.height_ofSource_pos source) hshaped j
  refine ⟨fun n => transcript_id hopen (hnext 0) n hwaiting, ?_, ?_, ?_⟩
  · intro n hn
    exact ⟨transcript_eq_stepPauses hn hnext hwaiting, map_nextPosition_stepPauses hn hnext⟩
  · intro k o hk hstop
    refine ⟨isPause_of_stopped? hstop, fun n hn => ?_⟩
    -- The session is open at first, so at least one step is made before it stops.
    obtain ⟨k, rfl⟩ : ∃ l, k = l + 1 := by
      refine Nat.exists_eq_succ_of_ne_zero ?_
      rintro rfl
      rw [Function.iterate_zero_apply, hopen] at hstop
      cases hstop
    exact transcript_eq_stepPauses_append hk hstop hnext hn hwaiting
  · intro j hj
    exact ⟨iterate_stepped_steps hj, iterate_stepped_machine j s⟩

/-- A program goes around two cells, with breakpoints on both, and is stepped to the end of its
budget. -/
theorem single_steps_walk_program_past_breakpoints :
    let s := start "1~" [] { maxSteps := some 4 } (⟨[]⟩ : Script) ""
    let d := [(0, 0), (1, 0)].foldl Debugger.addBreakpoint .paused
    0 < s.machine.grid.width ∧ s.machine.hasTerminated = false ∧ s.machine.steps < 4 ∧
      s.transcript id 3 d = List.replicate 3 (.paused .paused, s) ∧
      s.transcript Debugger.stepInto 9 d = s.stepPauses 4 ++ [(.stepLimit, stepped^[4] s)] ∧
      (s.stepPauses 4).map (fun r => r.2.machine.nextPosition) =
        [some (0, 0), some (1, 0), some (0, 0), some (1, 0)] := by
  intro s d
  have hwidth : 0 < s.machine.grid.width := by decide +kernel
  have hbelow : ∀ limit, s.settings.maxSteps = some limit → s.machine.steps < limit := by
    intro limit hlimit
    cases hlimit
    decide
  obtain ⟨hheld, hpauses, hend, -⟩ :=
    single_steps_walk_program "1~" [] (⟨[]⟩ : Script) [.feed ""] (s := s) rfl hwidth rfl hbelow
      [(0, 0), (1, 0)]
  have hopen : ∀ j < 4, (stepped^[j] s).stopped? = none := by decide +kernel
  have hstop : (stepped^[4] s).stopped? = some .stepLimit := by decide +kernel
  have hvisits : s.machine.fetched 4 = [(0, 0), (1, 0), (0, 0), (1, 0)] := by decide +kernel
  refine ⟨hwidth, rfl, by decide, hheld 3, (hend 4 .stepLimit hopen hstop).2 9 (by decide), ?_⟩
  rw [(hpauses 4 hopen).2, hvisits]
  rfl

end Session

end Aquarium
