import Aquarium.Proofs.Session.Budget

/-!
# A larger budget

The budget of a session is only looked at to decide whether to stop.  So the session makes the same
steps with another budget (`iterate_stepped_withBudget`), and with a larger one it goes on wherever
it went on before (`stopped?_withBudget`).  Output is only ever appended (`output_prefix_iterate`).
A run with a larger budget therefore extends the run with the smaller one, and is the same run if
that one came to the end of the program.
-/

namespace Aquarium

namespace Session

variable {κ : Type}

/-- The session with another budget. -/
def withBudget (budget : Option Nat) (s : Session κ) : Session κ :=
  { s with settings := { s.settings with maxSteps := budget } }

/-- Where a session goes on, it goes on with a larger budget. -/
lemma stopped?_withBudget {s : Session κ} {m : Nat} (hlimit : s.settings.maxSteps = some m)
    {budget : Option Nat} (hlarger : ∀ m', budget = some m' → m ≤ m') (h : s.stopped? = none) :
    (s.withBudget budget).stopped? = none := by
  obtain ⟨hrunning, hbelow⟩ := (stopped?_eq_none_iff hlimit).mp h
  exact stopped?_eq_none hrunning fun m' hm' => hbelow.trans_le (hlarger m' hm')

/-- How a machine ended does not depend on the budget. -/
lemma stopped?_withBudget_of_terminated {s : Session κ} (h : s.machine.hasTerminated = true)
    (budget : Option Nat) : (s.withBudget budget).stopped? = s.stopped? := by
  have h' : (s.withBudget budget).machine.hasTerminated = true := h
  rw [stopped?, stopped?, if_pos h, if_pos h']
  rfl

/-- Only a machine that has ended stops a session with such an outcome. -/
lemma terminated_of_stopped? {s : Session κ} {o : Outcome} (h : s.stopped? = some o)
    (ho : o = .completed ∨ ∃ f, o = .failed f) : s.machine.hasTerminated = true := by
  unfold stopped? at h
  split_ifs at h with hend
  · exact hend
  · cases h
    simp at ho

variable [Compass κ]

lemma iterate_stepped_withBudget (budget : Option Nat) (k : Nat) (s : Session κ) :
    stepped^[k] (s.withBudget budget) = (stepped^[k] s).withBudget budget := by
  induction k generalizing s with
  | zero => rfl
  | succ k ih => exact ih s.stepped

lemma output_prefix_iterate (k : Nat) (s : Session κ) :
    s.output.toList <+: (stepped^[k] s).output.toList := by
  induction k with
  | zero => exact List.prefix_refl _
  | succ k ih =>
      rw [Function.iterate_succ_apply', stepped, collect_output]
      exact ih.trans (List.prefix_append _ _)

/-- A run without debugger is a number of steps, up to the first session that stops on its own. -/
lemma Returns.exists_stop {s s' : Session κ} {o : Outcome} {d : Option Debugger}
    (h : s.Returns none (o, s', d)) :
    d = none ∧ ∃ k, s' = stepped^[k] s ∧ (∀ j < k, (stepped^[j] s).stopped? = none) ∧
      s'.stopped? = some o := by
  obtain ⟨turns, hrun⟩ := h
  obtain ⟨k, hs', hopen, hend⟩ := exists_iterate_of_runWithin hrun
  obtain ⟨hdebugger, hpaused⟩ := isSome_of_runWithin hrun
  refine ⟨by simpa using hdebugger, k, hs', hopen, ?_⟩
  rcases hend with hstop | ⟨-, hpause⟩
  · exact hstop
  · exact absurd (hpaused hpause) (by simp)

/-- As long as a session can go on it has not stopped. -/
lemma le_of_stopped? {s : Session κ} {k l : Nat} (hopen : ∀ j < k, (stepped^[j] s).stopped? = none)
    {o : Outcome} (hstop : (stepped^[l] s).stopped? = some o) : k ≤ l := by
  by_contra hlt
  rw [hopen l (Nat.lt_of_not_le hlt)] at hstop
  cases hstop

/-- There is only one result that a run without debugger can return. -/
lemma Returns.eq_of_stopped? {s : Session κ} {k : Nat}
    (hopen : ∀ j < k, (stepped^[j] s).stopped? = none) {o : Outcome}
    (hstop : (stepped^[k] s).stopped? = some o) {r : Outcome × Session κ × Option Debugger}
    (h : s.Returns none r) : r = (o, stepped^[k] s, none) := by
  obtain ⟨o', s', d'⟩ := r
  obtain ⟨rfl, l, rfl, hopen', hstop'⟩ := h.exists_stop
  obtain rfl : l = k := Nat.le_antisymm (le_of_stopped? hopen' hstop) (le_of_stopped? hopen hstop')
  rw [hstop] at hstop'
  cases hstop'
  rfl

/-- **A larger budget extends a run.**  A fresh session without debugger is run with a budget, and
again with one that is not smaller, or with none.  The first run returns, and so does the second
one if it has a budget.  Whenever the second run returns, its output begins with the output of the
first one.  If the first run came to the end of the program, by its own instruction or by a fault,
then the second run returns the same outcome, with the same session apart from the budget: the same
output, the same number of steps.  (A session without budget answers nothing after `2 ^ 64` steps,
which no counter of 64 bits can count.) -/
theorem larger_budget_extends_run (source : String) (values : List Float) (seed : Option Nat)
    (compass : κ) (input : String) (m : Nat) (budget : Option Nat)
    (hlarger : ∀ m', budget = some m' → m ≤ m') :
    let small := start source values { maxSteps := some m, seed := seed } compass input
    let large := start source values { maxSteps := budget, seed := seed } compass input
    ∃ o s, small.run none = some (o, s, none) ∧
      (budget.isSome → ∃ r, large.run none = some r) ∧
      (∀ o' s' d', large.Returns none (o', s', d') → s.output.toList <+: s'.output.toList) ∧
      ((o = .completed ∨ ∃ f, o = .failed f) →
        large.Returns none (o, s.withBudget budget, none) ∧
        (∀ r, large.Returns none r → r = (o, s.withBudget budget, none)) ∧
        (budget.isSome ∨ s.machine.steps < 2 ^ 64 →
          large.run none = some (o, s.withBudget budget, none))) := by
  intro small large
  obtain ⟨⟨o, s, d⟩, hrun⟩ := exists_run (s := small) rfl none
  obtain ⟨rfl, k, rfl, hopen, hstop⟩ := Returns.exists_stop ⟨_, hrun⟩
  have hsteps (j : Nat) : stepped^[j] large = (stepped^[j] small).withBudget budget :=
    iterate_stepped_withBudget budget j small
  have hopen' (j : Nat) (hj : j < k) : (stepped^[j] large).stopped? = none := by
    rw [hsteps]
    exact stopped?_withBudget (iterate_stepped_settings j small ▸ rfl) hlarger (hopen j hj)
  refine ⟨o, stepped^[k] small, hrun, ?_, ?_, ?_⟩
  · intro hsome
    obtain ⟨m', rfl⟩ := Option.isSome_iff_exists.mp hsome
    exact exists_run rfl none
  · intro o' s' d' hreturns
    obtain ⟨-, k', rfl, -, hstop'⟩ := hreturns.exists_stop
    obtain ⟨l, rfl⟩ := Nat.exists_eq_add_of_le' (le_of_stopped? hopen' hstop')
    rw [Function.iterate_add_apply, hsteps]
    exact output_prefix_iterate l ((stepped^[k] small).withBudget budget)
  · intro ho
    have hend := terminated_of_stopped? hstop ho
    have hstop' : (stepped^[k] large).stopped? = some o := by
      rw [hsteps, stopped?_withBudget_of_terminated hend, hstop]
    rw [← hsteps]
    refine ⟨⟨k + 1, runWithin_none hopen' hstop' k.lt_succ_self⟩,
      fun r hreturns => hreturns.eq_of_stopped? hopen' hstop', ?_⟩
    intro hbound
    rw [iterate_stepped_steps hopen] at hbound
    have hk : budget.isSome ∨ k < 2 ^ 64 := by
      rwa [show small.machine.steps + k = k from Nat.zero_add k] at hbound
    exact runWithin_none hopen' hstop' (lt_turnLimit hopen' hk)

/-- A budget that is used up by the very step that ends the program is as good as none. -/
theorem larger_budget_extends_run_at_last_step :
    let small := start "1n2n;" [] { maxSteps := some 5, seed := none } (⟨[]⟩ : Script) ""
    let large := start "1n2n;" [] { maxSteps := none, seed := none } (⟨[]⟩ : Script) ""
    ∃ s, small.run none = some (.completed, s, none) ∧ s.machine.steps = 5 ∧
      s.output.toList = [.number (Number.ofNat 1), .number (Number.ofNat 2)] ∧
      large.run none = some (.completed, s.withBudget none, none) := by
  intro small large
  obtain ⟨o, s, hrun, -, -, hend⟩ :=
    larger_budget_extends_run "1n2n;" [] none (⟨[]⟩ : Script) "" 5 none fun m' h => by cases h
  have hresult : (small.run none).map (fun r => (r.1, r.2.1.machine.steps, r.2.1.output.toList)) =
      some (.completed, 5, [.number (Number.ofNat 1), .number (Number.ofNat 2)]) := by
    decide +kernel
  rw [hrun, Option.map_some, Option.some_inj, Prod.mk.injEq, Prod.mk.injEq] at hresult
  obtain ⟨rfl, hsteps, houtput⟩ := hresult
  have hbound : s.machine.steps < 2 ^ 64 := by
    rw [hsteps]
    decide
  exact ⟨s, hrun, hsteps, houtput, (hend (Or.inl rfl)).2.2 (Or.inr hbound)⟩

end Session

end Aquarium
