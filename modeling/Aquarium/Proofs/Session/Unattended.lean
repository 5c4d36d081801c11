import Aquarium.Proofs.Session.Endings

/-!
# Runs without a debugger

Without a debugger a run of a fresh session goes on until its program has ended or has used up the
budget.  `Lasts` is a number of steps of the bare machine that is enough for this, and what the run
shows is what the bare machine does with as many steps (`exists_run_of_lasts`).  If there is no such
number, then the run does not return (`exists_lasts_of_run`).
-/

namespace Aquarium

namespace Machine

variable {κ : Type} [Compass κ]

/-- A number of steps that takes a program as far as it gets: all that the budget allows, which the
program need not make if it ends before, or without a budget any number after which it has ended.
Steps are counted in 64 bits. -/
def Lasts (budget : Option Nat) (m : Machine κ) (n : Nat) : Prop :=
  budget = some n ∨ budget = none ∧ n < 2 ^ 64 ∧ (m.run n).hasTerminated = true

/-- Of the steps asked for, only those up to the end of the program are made and counted. -/
lemma exists_run_eq (n : Nat) (m : Machine κ) :
    ∃ k ≤ n, m.run k = m.run n ∧ (m.run n).steps = m.steps + k ∧
      (k = n ∨ (m.run n).hasTerminated = true) := by
  induction n with
  | zero => exact ⟨0, le_rfl, rfl, rfl, Or.inl rfl⟩
  | succ n ih =>
      obtain ⟨k, hk, hrun, hsteps, hend⟩ := ih
      cases hterminated : (m.run n).hasTerminated with
      | true =>
          have hsame : m.run (n + 1) = m.run n := by
            rw [run_succ, HostCall.apply_step_of_terminated hterminated]
          exact ⟨k, hk.trans n.le_succ, by rw [hsame, hrun], by rw [hsame, hsteps],
            Or.inr (by rw [hsame, hterminated])⟩
      | false =>
          obtain ⟨m', hstep⟩ := exists_step hterminated
          obtain rfl := (hend.resolve_right (by simp [hterminated])).symm
          refine ⟨n + 1, le_rfl, rfl, ?_, Or.inl rfl⟩
          rw [run_succ, HostCall.apply_step_of_ok hstep, steps_of_step hstep, hsteps]
          rfl

end Machine

namespace Session

variable {κ : Type} [Compass κ] {s : Session κ}

/-- How the run of a program is reported that has made its last step. -/
def lastOutcome (m : Machine κ) : Outcome :=
  if m.hasTerminated then ending m else .stepLimit

/-- **A run without debugger shows what the bare machine does.** -/
lemma exists_run_of_lasts {n : Nat} (hsteps : s.machine.steps = 0)
    (hpending : s.machine.output = {}) (h : s.machine.Lasts s.settings.maxSteps n) :
    ∃ s', s.run none = some (lastOutcome (s.machine.run n), s', none) ∧
      s'.machine = (s.machine.run n).silenced ∧
      s'.output.toList = s.output.toList ++ (s.machine.run n).output.items := by
  obtain ⟨k, hk, hrun, hcount, hend⟩ := s.machine.exists_run_eq n
  have hstop : stopped? { s with machine := s.machine.run n } =
      some (lastOutcome (s.machine.run n)) := by
    cases hterminated : (s.machine.run n).hasTerminated with
    | true => simp [stopped?, lastOutcome, hterminated]
    | false =>
        -- a program that has not ended has used up its budget
        have hlimit : s.settings.maxSteps = some n := h.resolve_right (by simp [hterminated])
        obtain rfl := hend.resolve_right (by simp [hterminated])
        simp [stopped?, lastOutcome, isSpent, hterminated, hlimit, hcount]
  obtain ⟨s', hmachine, houtput, -, hreturns⟩ := returns_of_stopped hrun hcount hstop
    (fun limit hlimit => by
      rcases h with h | ⟨h, -⟩
      · obtain rfl : n = limit := Option.some.inj (h.symm.trans hlimit)
        omega
      · rw [hlimit] at h
        cases h)
    hpending
  refine ⟨s', hreturns ?_, hmachine, houtput⟩
  rcases h with h | ⟨-, hlt, -⟩
  · exact Or.inl (by rw [h]; rfl)
  · exact Or.inr (hk.trans_lt hlt)

lemma runWithin_none_eq_none {turns : Nat}
    (hopen : ∀ j < turns, (stepped^[j] s).stopped? = none) : s.runWithin turns none = none := by
  induction turns generalizing s with
  | zero => rfl
  | succ turns ih =>
      have hmove : s.turn none = .go s.stepped none :=
        turn_of_moving (hopen 0 turns.succ_pos) (consult_none s)
      rw [runWithin, hmove]
      exact ih fun j hj => hopen (j + 1) (Nat.succ_lt_succ hj)

/-- A run that returns has made a number of steps that is enough. -/
lemma exists_lasts_of_run (h : s.run none ≠ none) : ∃ n, s.machine.Lasts s.settings.maxSteps n := by
  cases hbudget : s.settings.maxSteps with
  | some limit => exact ⟨limit, Or.inl rfl⟩
  | none =>
      by_contra hnever
      refine h (runWithin_none_eq_none fun j hj => stopped?_eq_none ?_ ?_)
      · have hphase : (stepped^[j] s).machine.phase = (s.machine.run j).phase :=
          congrArg (·.phase) (iterate_stepped_machine j s)
        by_contra hend
        rw [Machine.hasTerminated, hphase, Bool.not_eq_false] at hend
        rw [turnLimit, hbudget] at hj
        exact hnever ⟨j, Or.inr ⟨rfl, hj, hend⟩⟩
      · intro limit hlimit
        rw [iterate_stepped_settings, hbudget] at hlimit
        cases hlimit

end Session

end Aquarium
