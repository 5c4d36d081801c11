import Aquarium.Proofs.Session.Transparency

/-!
# Sessions of programs that end

If a program ends by itself, then its session without debugger ends with it, provided that the
budget suffices.  To know this it is enough to know one state of the bare machine: the last one,
with all steps counted (`returns_of_run`).  A machine that had ended before would not have counted
the steps after that (`running_of_steps_run`).
-/

namespace Aquarium

namespace Machine

variable {κ : Type} [Compass κ]

lemma steps_run_le (k : Nat) (m : Machine κ) : (m.run k).steps ≤ m.steps + k := by
  induction k with
  | zero => exact le_rfl
  | succ k ih =>
      rw [run_succ]
      cases hend : (m.run k).hasTerminated with
      | true =>
          rw [HostCall.apply_step_of_terminated hend]
          omega
      | false =>
          obtain ⟨m', hstep⟩ := exists_step hend
          rw [HostCall.apply_step_of_ok hstep, steps_of_step hstep]
          omega

/-- A machine that has made all the steps asked for had not ended before the last of them. -/
lemma running_of_steps_run {j k : Nat} {m : Machine κ} (h : (m.run k).steps = m.steps + k)
    (hj : j < k) : (m.run j).hasTerminated = false := by
  by_contra hend
  rw [Bool.not_eq_false] at hend
  have hfixed := HostCall.apply_step_of_terminated hend
  have hstays : m.run k = m.run j := by
    obtain ⟨i, rfl⟩ := Nat.exists_eq_add_of_le hj.le
    rw [run_add, run_eq_iterate i, Function.iterate_fixed hfixed]
  have hle := steps_run_le j m
  rw [hstays] at h
  omega

end Machine

namespace Session

variable {κ : Type} [Compass κ]

/-- If the bare machine has made `k` steps that the budget allows, and the session would stop there,
then a run without debugger returns with this reason, and has collected all that was printed. -/
lemma returns_of_stopped {s : Session κ} {m : Machine κ} {k : Nat} {o : Outcome}
    (hrun : s.machine.run k = m) (hsteps : m.steps = s.machine.steps + k)
    (hstop : stopped? { s with machine := m } = some o)
    (hbudget : ∀ limit, s.settings.maxSteps = some limit → s.machine.steps + k ≤ limit)
    (hpending : s.machine.output = {}) :
    ∃ s', s'.machine = m.silenced ∧ s'.output.toList = s.output.toList ++ m.output.items ∧
      s.Returns none (o, s', none) ∧
      (s.settings.maxSteps.isSome ∨ k < 2 ^ 64 → s.run none = some (o, s', none)) := by
  subst hrun
  have hmachine (j : Nat) : (stepped^[j] s).machine = (s.machine.run j).silenced := by
    rw [← iterate_stepped_machine, Machine.silenced, ← iterate_stepped_pending j hpending]
  have hopen (j : Nat) (hj : j < k) : (stepped^[j] s).stopped? = none := by
    refine stopped?_eq_none ?_ ?_
    · rw [hmachine]
      exact Machine.running_of_steps_run hsteps hj
    · intro limit hlimit
      rw [iterate_stepped_settings] at hlimit
      have hle := Machine.steps_run_le j s.machine
      have hall := hbudget limit hlimit
      rw [hmachine]
      show (s.machine.run j).steps < limit
      omega
  have hstop' : (stepped^[k] s).stopped? = some o := by
    rw [← hstop]
    simp only [stopped?, isSpent, iterate_stepped_settings, hmachine]
    rfl
  refine ⟨stepped^[k] s, hmachine k, ?_, ⟨k + 1, runWithin_none hopen hstop' k.lt_succ_self⟩, ?_⟩
  · have hall := iterate_stepped_emissions k s
    rw [iterate_stepped_pending k hpending] at hall
    simpa using hall
  · exact fun hbound => runWithin_none hopen hstop' (lt_turnLimit hopen hbound)

/-- **A program that ends takes its session with it.**  If the bare machine has ended after `k`
steps, no fewer, and the budget allows them, then a run without debugger returns how it ended, and
has collected all that was printed. -/
lemma returns_of_run {s : Session κ} {m : Machine κ} {k : Nat} (hrun : s.machine.run k = m)
    (hsteps : m.steps = s.machine.steps + k) (hend : m.hasTerminated = true)
    (hbudget : ∀ limit, s.settings.maxSteps = some limit → s.machine.steps + k ≤ limit)
    (hpending : s.machine.output = {}) :
    ∃ s', s'.machine = m.silenced ∧ s'.output.toList = s.output.toList ++ m.output.items ∧
      s.Returns none (ending m, s', none) ∧
      (s.settings.maxSteps.isSome ∨ k < 2 ^ 64 → s.run none = some (ending m, s', none)) :=
  returns_of_stopped hrun hsteps (if_pos hend) hbudget hpending

end Session

end Aquarium
