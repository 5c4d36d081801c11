import Aquarium.Proofs.Machine.Bounds
import Aquarium.Proofs.Session.Transparency

/-!
# Every visit of a breakpoint is reported once

A user sets breakpoints, runs the program, and lets it continue after every pause (`drive`).  What
the user sees is the `transcript` of the runs.  The positions reported are the positions of the
cells the program executes (`Machine.fetched`), in order, as far as they have a breakpoint.

What carries the proof is the state of the debugger in front of a cell.  It is *resuming* if it
has just paused there: then it lets the program pass.  Otherwise it pauses if there is a
breakpoint.  A step always ends the resuming, so the next visit of the same cell is reported
again, even if it is the very next step.
-/

namespace Aquarium

/-! ## The set of breakpoints -/

lemma Position.mem_insert {p q : Position} {ps : List Position} :
    q ∈ p.insert ps ↔ q = p ∨ q ∈ ps := by
  induction ps with
  | nil => simp [Position.insert]
  | cons r ps ih =>
      unfold Position.insert
      split_ifs with heq
      · subst heq
        simp
      · simp
      · rw [List.mem_cons, List.mem_cons, ih]
        exact or_left_comm

namespace Debugger

lemma hasBreakpoint_addBreakpoint (d : Debugger) (p q : Position) :
    (d.addBreakpoint p).hasBreakpoint q ↔ q = p ∨ d.hasBreakpoint q := by
  simp only [hasBreakpoint, addBreakpoint, List.contains_iff_mem, Position.mem_insert]

/-- Breakpoints added one after the other are those, and the ones set before. -/
lemma hasBreakpoint_foldl (ps : List Position) (d : Debugger) (q : Position) :
    (ps.foldl addBreakpoint d).hasBreakpoint q ↔ q ∈ ps ∨ d.hasBreakpoint q := by
  induction ps generalizing d with
  | nil => simp
  | cons p ps ih =>
      rw [List.foldl_cons, ih, hasBreakpoint_addBreakpoint, List.mem_cons]
      exact or_left_comm.trans or_assoc.symm

/-- Adding breakpoints changes nothing else. -/
lemma foldl_addBreakpoint (ps : List Position) (d : Debugger) :
    ∃ qs, ps.foldl addBreakpoint d = { d with breakpoints := qs } := by
  induction ps generalizing d with
  | nil => exact ⟨d.breakpoints, rfl⟩
  | cons p ps ih =>
      obtain ⟨qs, hqs⟩ := ih (d.addBreakpoint p)
      exact ⟨qs, by rw [List.foldl_cons, hqs]; rfl⟩

/-- A debugger that runs to the next breakpoint and is not resuming anywhere. -/
structure Armed (d : Debugger) : Prop where
  running : d.mode = .running
  notResuming : ∀ p, d.isResuming p = false

/-- A debugger that runs to the next breakpoint after a pause in front of a position. -/
structure ResumingAt (p : Position) (d : Debugger) : Prop where
  running : d.mode = .running
  resuming : d.isResuming p = true

lemma check_of_resumingAt {d : Debugger} {p : Position} (h : d.ResumingAt p) :
    d.check p = (none, d) := by
  simp only [check, h.running, h.resuming, if_true]

lemma check_of_armed {d : Debugger} (h : d.Armed) {p : Position} :
    d.check p =
      if d.hasBreakpoint p then (some (.breakpoint p), d.pauseAt p)
      else (none, { d with lastPause := none }) := by
  simp only [check, h.running, h.notResuming, Bool.false_eq_true, if_false]

/-- After a step a debugger is not resuming any more. -/
lemma armed_markExecuted {d : Debugger} (h : d.mode = .running) : d.markExecuted.Armed :=
  ⟨h, fun p => by simp [isResuming, markExecuted]⟩

/-- A debugger told to continue after a pause is resuming where it paused. -/
lemma resumingAt_continueRunning (d : Debugger) (p : Position) :
    (d.pauseAt p).continueRunning.ResumingAt p :=
  ⟨rfl, by simp [isResuming, continueRunning, pauseAt]⟩

end Debugger

/-! ## The cells a program executes -/

namespace Machine

variable {κ : Type}

/-- The position of the cell that the next step looks at. -/
def fetchPosition (m : Machine κ) : Position := (m.advance.pointer.x, m.advance.pointer.y)

/-- Where there is a next cell, it is the one that the next step looks at. -/
lemma nextPosition_of_isSome {m : Machine κ} (h : m.nextPosition.isSome) :
    m.nextPosition = some m.fetchPosition := by
  simp only [nextPosition, Option.isSome_map] at h ⊢
  obtain ⟨cell, hcell⟩ := Option.isSome_iff_exists.mp h
  rw [hcell]
  rfl

variable [Compass κ]

/-- The positions of the cells that the next `n` steps look at, fewer if the machine ends
before. -/
def fetched : Nat → Machine κ → List Position
  | 0, _ => []
  | n + 1, m =>
      match m.step with
      | .ok m' => m.fetchPosition :: fetched n m'
      | .error _ => []

/-- Emissions that wait to be collected do not change the way. -/
lemma fetched_amid (older : List Emission) (n : Nat) (m : Machine κ) :
    (m.amid older []).fetched n = m.fetched n := by
  induction n generalizing m with
  | zero => rfl
  | succ n ih =>
      have hstep := step_amid older [] (m := m) fun _ => Or.inl rfl
      simp only [fetched, hstep]
      cases m.step with
      | ok m' =>
          simp only [Except.map]
          rw [ih m']
          rfl
      | error f => rfl

lemma fetched_silenced (n : Nat) (m : Machine κ) : m.silenced.fetched n = m.fetched n := by
  conv_rhs => rw [← silenced_amid_output m, fetched_amid]

end Machine

/-! ## Driving a session through its pauses -/

namespace Session

variable {κ : Type}

/-- A session with a budget on a grid with cells: it always has a next position, and every run of
it returns. -/
structure Bounded (limit : Nat) (s : Session κ) : Prop where
  budget : s.settings.maxSteps = some limit
  shaped : ∃ width height, 0 < width ∧ 0 < height ∧ s.machine.Shaped width height

lemma Bounded.nextPosition {limit : Nat} {s : Session κ} (h : s.Bounded limit) :
    s.machine.nextPosition = some s.machine.fetchPosition := by
  obtain ⟨width, height, hw, hh, hshaped⟩ := h.shaped
  exact Machine.nextPosition_of_isSome (hshaped.isSome_nextPosition hw hh)

variable [Compass κ]

/-- The outcomes of at most `calls` runs, each with the session that it leaves.  After every pause
the debugger is given a command; a run that is not paused is the last one. -/
def transcript (command : Debugger → Debugger) :
    Nat → Session κ → Debugger → List (Outcome × Session κ)
  | 0, _, _ => []
  | calls + 1, s, d =>
      match s.run (some d) with
      | some (.paused event, s', some d') =>
          (.paused event, s') :: transcript command calls s' (command d')
      | some (outcome, s', _) => [(outcome, s')]
      | none => []

/-- The events of the pauses in a transcript, and how and in which session the last run ended, if
there is a run that was not paused. -/
def summary? : List (Outcome × Session κ) → Option (List DebugEvent × Outcome × Session κ)
  | [] => none
  | (.paused event, _) :: rest =>
      (summary? rest).map fun (events, last) => (event :: events, last)
  | last :: _ => some ([], last)

/-- Drives a session until a run is not paused.  There are as many runs as turns at most. -/
def drive (command : Debugger → Debugger) (s : Session κ) (d : Debugger) :
    Option (List DebugEvent × Outcome × Session κ) :=
  summary? (s.transcript command s.turnLimit d)

variable {command : Debugger → Debugger}

lemma transcript_of_paused {s s' : Session κ} {d d' : Debugger} {event : DebugEvent}
    (h : s.run (some d) = some (.paused event, s', some d')) (calls : Nat) :
    s.transcript command (calls + 1) d =
      (.paused event, s') :: s'.transcript command calls (command d') := by
  rw [transcript, h]

lemma transcript_of_stopped {s s' : Session κ} {d : Debugger} {d' : Option Debugger} {o : Outcome}
    (h : s.run (some d) = some (o, s', d')) (ho : o.isPause = false) (calls : Nat) :
    s.transcript command (calls + 1) d = [(o, s')] := by
  rw [transcript, h]
  cases o with
  | paused event => cases ho
  | _ => rfl

/-- A transcript looks at the result of the next run only. -/
lemma transcript_congr {s s' : Session κ} {d d' : Debugger}
    (h : s.run (some d) = s'.run (some d')) (calls : Nat) :
    s.transcript command calls d = s'.transcript command calls d' := by
  cases calls with
  | zero => rfl
  | succ calls => rw [transcript, transcript, h]

/-! ## Breakpoints along a run -/

lemma shaped_stepped {width height : Nat} {s : Session κ}
    (h : s.machine.Shaped width height) : s.stepped.machine.Shaped width height := by
  have hstep := h.after [.step]
  rw [stepped_machine]
  exact ⟨hstep.1, hstep.2, hstep.3⟩

lemma Bounded.stepped {limit : Nat} {s : Session κ} (h : s.Bounded limit) :
    s.stepped.Bounded limit := by
  obtain ⟨width, height, hw, hh, hshaped⟩ := h.shaped
  exact ⟨h.budget, width, height, hw, hh, shaped_stepped hshaped⟩

/-- The first of the next positions, and the others as seen from the session after the step. -/
lemma fetched_succ {s : Session κ} (h : s.stopped? = none) (k : Nat) :
    s.machine.fetched (k + 1) = s.machine.fetchPosition :: s.stepped.machine.fetched k := by
  obtain ⟨m, hm⟩ := Machine.exists_step (running_of_stopped? h)
  have hmachine : s.stepped.machine = m.silenced := by
    rw [stepped_of_step hm, collect_machine]
    rfl
  rw [hmachine, Machine.fetched_silenced, Machine.fetched, hm]

/-- The events of a drive as they should be: the breakpoints among the given positions. -/
def breakpointEvents (d : Debugger) (ps : List Position) : List DebugEvent :=
  (ps.filter d.hasBreakpoint).map .breakpoint

/-- What is claimed of a drive that makes `k` steps: it reports the given events, and then the
session stops on its own. -/
structure DrivesTo (calls : Nat) (s : Session κ) (d : Debugger) (events : List DebugEvent)
    (o : Outcome) (k : Nat) : Prop where
  drive_eq : summary? (s.transcript Debugger.continueRunning calls d) =
    some (events, o, stepped^[k] s)
  unstopped : ∀ j < k, (stepped^[j] s).stopped? = none
  stopped : (stepped^[k] s).stopped? = some o

/-- A step in front of a drive that goes on without a pause. -/
lemma DrivesTo.head {calls : Nat} {s : Session κ} {d d' : Debugger} {events : List DebugEvent}
    {o : Outcome} {k : Nat} (h : s.stopped? = none)
    (hrun : s.run (some d) = s.stepped.run (some d'))
    (hrest : DrivesTo calls s.stepped d' events o k) : DrivesTo calls s d events o (k + 1) where
  drive_eq := by rw [transcript_congr hrun, hrest.drive_eq]; rfl
  unstopped := by
    intro j hj
    cases j with
    | zero => exact h
    | succ j => exact hrest.unstopped j (Nat.lt_of_succ_lt_succ hj)
  stopped := hrest.stopped

lemma drivesTo_of_stopped {s : Session κ} {o : Outcome} (h : s.stopped? = some o) (calls : Nat)
    (d : Debugger) : DrivesTo (calls + 1) s d [] o 0 where
  drive_eq := by
    have hpause := isPause_of_stopped? h
    rw [transcript_of_stopped (run_of_stopped h (some d)) hpause]
    cases o with
    | paused event => cases hpause
    | _ => rfl
  unstopped j hj := absurd hj (Nat.not_lt_zero j)
  stopped := h

/-- In front of a cell without breakpoint an armed debugger lets the session pass. -/
lemma run_of_armed {limit : Nat} {s : Session κ} (hs : s.Bounded limit) (hopen : s.stopped? = none)
    {d : Debugger} (hd : d.Armed) (hfree : d.hasBreakpoint s.machine.fetchPosition = false) :
    s.run (some d) = s.stepped.run (some { d with lastPause := none }.markExecuted) := by
  have hconsult := consult_some hs.nextPosition d
  rw [Debugger.check_of_armed hd, hfree] at hconsult
  exact run_of_moving hopen hs.budget hconsult

/-- In front of a breakpoint an armed debugger pauses. -/
lemma run_of_armed_breakpoint {limit : Nat} {s : Session κ} (hs : s.Bounded limit)
    (hopen : s.stopped? = none) {d : Debugger} (hd : d.Armed)
    (hbreak : d.hasBreakpoint s.machine.fetchPosition = true) :
    s.run (some d) =
      some (.paused (.breakpoint s.machine.fetchPosition), s,
        some (d.pauseAt s.machine.fetchPosition)) := by
  have hconsult := consult_some hs.nextPosition d
  rw [Debugger.check_of_armed hd, hbreak] at hconsult
  exact run_of_paused hopen hs.budget hconsult

/-- Where it has just paused, a debugger lets the session pass. -/
lemma run_of_resumingAt {limit : Nat} {s : Session κ} (hs : s.Bounded limit)
    (hopen : s.stopped? = none) {d : Debugger} (hd : d.ResumingAt s.machine.fetchPosition) :
    s.run (some d) = s.stepped.run (some d.markExecuted) := by
  have hconsult := consult_some hs.nextPosition d
  rw [Debugger.check_of_resumingAt hd] at hconsult
  exact run_of_moving hopen hs.budget hconsult

/-- A session that is driven with an armed debugger reports the breakpoints on its way.  The
induction is on the steps that the budget leaves: a pause costs a call, but the step after it is
made without asking again, so there are never more pauses than steps. -/
lemma exists_drivesTo {limit : Nat} (n : Nat) : ∀ {s : Session κ} {d : Debugger} {calls : Nat},
    s.Bounded limit → limit - s.machine.steps < n → n ≤ calls → d.Armed →
      ∃ o k, DrivesTo calls s d (breakpointEvents d (s.machine.fetched k)) o k := by
  induction n with
  | zero => intro s d calls _ hn; exact absurd hn (Nat.not_lt_zero _)
  | succ n ih =>
      intro s d calls hs hn hcalls hd
      obtain ⟨calls, rfl⟩ := Nat.exists_eq_succ_of_ne_zero (Nat.ne_zero_of_lt hcalls)
      cases hstop : s.stopped? with
      | some o => exact ⟨o, 0, drivesTo_of_stopped hstop calls d⟩
      | none =>
          have hleft : limit - s.stepped.machine.steps < n := by
            have hunspent := unspent_of_stopped? hstop
            simp only [isSpent, hs.budget, decide_eq_false_iff_not] at hunspent
            rw [stepped_steps hstop]
            omega
          cases hbreak : d.hasBreakpoint s.machine.fetchPosition with
          | false =>
              obtain ⟨o, k, hrest⟩ := ih hs.stepped hleft (Nat.le_of_succ_le hcalls)
                (Debugger.armed_markExecuted (d := { d with lastPause := none }) hd.running)
              have hdrive := hrest.head hstop (run_of_armed hs hstop hd hbreak)
              refine ⟨o, k + 1, ?_, hdrive.unstopped, hdrive.stopped⟩
              rw [hdrive.drive_eq, fetched_succ hstop, breakpointEvents, breakpointEvents,
                List.filter_cons_of_neg (by simp [hbreak])]
              rfl
          | true =>
              -- The next call resumes, and makes the step without another pause.
              have hresume := Debugger.resumingAt_continueRunning d s.machine.fetchPosition
              obtain ⟨o, k, hrest⟩ := ih hs.stepped hleft (Nat.le_of_succ_le_succ hcalls)
                (Debugger.armed_markExecuted hresume.running)
              have hdrive := hrest.head hstop (run_of_resumingAt hs hstop hresume)
              refine ⟨o, k + 1, ?_, hdrive.unstopped, hdrive.stopped⟩
              rw [transcript_of_paused (run_of_armed_breakpoint hs hstop hd hbreak), summary?,
                hdrive.drive_eq, fetched_succ hstop, breakpointEvents, breakpointEvents,
                List.filter_cons_of_pos hbreak]
              rfl

/-- **Breakpoints fire once per visit.**  A session on a grid with columns, whose machine is any
that a host can reach, is driven through all its pauses within its budget.  Then every event is a
breakpoint, and the positions reported are those of the cells executed by the steps made, in
order, as far as they are among the given ones. -/
theorem breakpoints_fire_once_per_visit (source : String) (values : List Float) (compass : κ)
    (calls : List HostCall) {s : Session κ}
    (hs : s.machine = (Machine.load source values compass).after calls)
    (hwidth : 0 < s.machine.grid.width) {limit : Nat} (hlimit : s.settings.maxSteps = some limit)
    (positions : List Position) :
    ∃ events outcome s',
      s.drive Debugger.continueRunning (positions.foldl Debugger.addBreakpoint .running) =
          some (events, outcome, s') ∧
        outcome.isPause = false ∧
        s'.machine.silenced =
          (s.machine.run (s'.machine.steps - s.machine.steps)).silenced ∧
        events =
          ((s.machine.fetched (s'.machine.steps - s.machine.steps)).filter (· ∈ positions)).map
            .breakpoint := by
  have hbounded : s.Bounded limit := by
    have hshaped := (Machine.shaped_load source values compass).after calls
    rw [← hs] at hshaped
    exact ⟨hlimit, _, _, by rw [← hshaped.width_eq]; exact hwidth,
      Grid.height_ofSource_pos source, hshaped⟩
  have harmed : (positions.foldl Debugger.addBreakpoint .running).Armed := by
    obtain ⟨ps, hps⟩ := Debugger.foldl_addBreakpoint positions .running
    rw [hps]
    exact ⟨rfl, fun p => by simp [Debugger.isResuming, Debugger.running]⟩
  have hevents : (positions.foldl Debugger.addBreakpoint .running).hasBreakpoint =
      fun p => decide (p ∈ positions) := by
    funext p
    have hiff := Debugger.hasBreakpoint_foldl positions .running p
    have hnone : Debugger.running.hasBreakpoint p = false := rfl
    rw [hnone] at hiff
    rw [Bool.eq_iff_iff, hiff]
    simp
  have hturns : s.turnLimit = limit - s.machine.steps + 1 := by rw [turnLimit, hlimit]
  obtain ⟨o, k, hdrive⟩ := exists_drivesTo s.turnLimit hbounded (by omega) le_rfl harmed
  have hk : (stepped^[k] s).machine.steps - s.machine.steps = k := by
    rw [iterate_stepped_steps hdrive.unstopped]
    omega
  refine ⟨_, o, _, hdrive.drive_eq, isPause_of_stopped? hdrive.stopped, ?_, ?_⟩
  · rw [hk]
    exact iterate_stepped_machine k s
  · rw [hk, breakpointEvents, hevents]

/-- On a grid of one cell the pointer never leaves the breakpoint, and each of its three steps is
reported. -/
theorem breakpoints_fire_on_single_cell :
    let s := start "1" [] { maxSteps := some 3 } (⟨[]⟩ : Script) ""
    0 < s.machine.grid.width ∧
      ∃ outcome s',
        s.drive Debugger.continueRunning (Debugger.running.addBreakpoint (0, 0)) =
            some (List.replicate 3 (.breakpoint (0, 0)), outcome, s') ∧
          s'.machine.steps = 3 ∧
          s'.machine.silenced = (s.machine.run 3).silenced ∧
          s.machine.fetched 3 = List.replicate 3 (0, 0) := by
  intro s
  have hwidth : 0 < s.machine.grid.width := by decide +kernel
  obtain ⟨events, outcome, s', hdrive, -, hmachine, hevents⟩ :=
    breakpoints_fire_once_per_visit "1" [] (⟨[]⟩ : Script) [.feed ""] (s := s) rfl hwidth rfl
      [(0, 0)]
  have hsteps : (s.drive Debugger.continueRunning (Debugger.running.addBreakpoint (0, 0))).map
      (fun r => r.2.2.machine.steps) = some 3 := by decide +kernel
  have hvisits : s.machine.fetched 3 = List.replicate 3 (0, 0) := by decide +kernel
  have hstart : s.machine.steps = 0 := rfl
  rw [List.foldl_cons, List.foldl_nil] at hdrive
  rw [hdrive, Option.map_some, Option.some_inj] at hsteps
  rw [hstart, Nat.sub_zero, hsteps] at hmachine hevents
  refine ⟨hwidth, outcome, s', ?_, hsteps, hmachine, hvisits⟩
  rw [hdrive, hevents, hvisits]
  rfl

end Session

end Aquarium
