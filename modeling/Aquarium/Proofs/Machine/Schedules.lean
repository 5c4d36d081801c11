import Aquarium.Proofs.Machine.Queues
import Aquarium.Proofs.Machine.Traffic

/-!
# When the host gives and collects does not matter

A host shares its calls out between the steps as it likes: it can give the whole input in advance
or each character just before it is read, and collect the output at once or at the end.  The
machine cannot tell, because it looks at neither end of its queues.  The only exception is a step
that reads from an empty input, so the host must not be late with its input (`WellFed`).

Two machines under different schedules have different queues at the same time.  They are compared
by putting both queues back together: a machine `amid` the emissions that were collected and the
input that is still to come.  In this view a call that is no step changes nothing
(`amid_apply_of_ne_step`), and a step is a step (`apply_step_amid`).  So every schedule comes to the
same as one that gives all its input first, makes its steps and collects nothing (`amid_after`).
-/

namespace Aquarium

namespace HostCall

/-- The calls that collect output. -/
def collects : HostCall → Bool
  | .takeOutput | .drainOutput => true
  | .step | .giveChar _ | .giveText _ | .feed _ => false

lemma offers_of_collects {call : HostCall} (h : call.collects = true) : call.offers = [] := by
  cases call with
  | takeOutput | drainOutput => rfl
  | step | giveChar | giveText | feed => cases h

lemma hands_of_not_collects {κ : Type} [Compass κ] {call : HostCall} (h : call.collects = false)
    (m : Machine κ) : call.hands m = [] := by
  cases call with
  | step => exact hands_step m
  | giveChar | feed => rfl
  | giveText text =>
      simp only [hands, answer]
      cases m.giveText text <;> rfl
  | takeOutput | drainOutput => cases h

end HostCall

namespace Machine

variable {κ : Type} [Compass κ]

/-- No step among the calls reads from an empty input. -/
def WellFed (m : Machine κ) : List HostCall → Prop
  | [] => True
  | call :: calls =>
      (call = .step → m.symbol? = some 'i' → m.input.items ≠ []) ∧ (call.apply m).WellFed calls

instance decidableWellFed : (m : Machine κ) → (calls : List HostCall) → Decidable (m.WellFed calls)
  | _, [] => isTrue trivial
  | m, call :: calls =>
      have := decidableWellFed (call.apply m) calls
      inferInstanceAs (Decidable (_ ∧ _))

/-- What two schedules from the same machine on have in common in the end: the machine apart from
its output, and all emissions, whether they were collected or not. -/
structure SameOutcome (m : Machine κ) (calls calls' : List HostCall) : Prop where
  machine_eq : (m.after calls).silenced = (m.after calls').silenced
  emissions_eq :
    m.history HostCall.hands calls ++ (m.after calls).output.items =
      m.history HostCall.hands calls' ++ (m.after calls').output.items

/-- Two machines with the emissions that were collected from them put back. -/
lemma sameOutcome_of_amid_eq {m : Machine κ} {calls calls' : List HostCall}
    (h : (m.after calls).amid (m.history HostCall.hands calls) [] =
      (m.after calls').amid (m.history HostCall.hands calls') []) : m.SameOutcome calls calls' where
  machine_eq := by
    have hsilenced (older : List Emission) (n : Machine κ) :
        (n.amid older []).silenced = n.silenced := by
      simp only [silenced, amid, List.append_nil]
    rw [← hsilenced, h, hsilenced]
  emissions_eq := congrArg (fun n => n.output.items) h

/-! ## One call -/

/-- A call that is no step moves emissions and input, and all of them are still in view. -/
lemma amid_apply_of_ne_step {call : HostCall} (h : call ≠ .step) (older : List Emission)
    (further : List Char) (m : Machine κ) :
    (call.apply m).amid (older ++ call.hands m) further =
      m.amid older (call.accepts m ++ further) := by
  obtain ⟨input, output, hm⟩ := HostCall.apply_of_ne_step h m
  have hinput : m.input.items ++ call.accepts m = input.items := by
    have hbalance := call.input_balance m
    rwa [hm, HostCall.reads, if_neg h, List.nil_append] at hbalance
  have houtput : m.output.items = call.hands m ++ output.items := by
    have hbalance := call.output_balance m
    rwa [hm, HostCall.emits, if_neg h, List.append_nil] at hbalance
  simp only [hm, amid, houtput, ← hinput, List.append_assoc]

/-- An offer is accepted or refused whatever waits in the output. -/
lemma apply_amid_of_not_collects {call : HostCall} (h : call.collects = false)
    (older : List Emission) (m : Machine κ) :
    call.apply (m.amid older []) = (call.apply m).amid older [] := by
  cases call with
  | step => exact apply_step_amid older [] fun _ => Or.inl rfl
  | giveChar c | feed text =>
      simp only [HostCall.apply, giveChar, feed, Queue.write, Queue.writeAll, amid, List.append_nil]
  | giveText text =>
      simp only [HostCall.apply, giveText]
      rcases text.toList with _ | ⟨c, _ | ⟨d, rest⟩⟩ <;>
        simp only [giveChar, Queue.write, amid, List.append_nil]
  | takeOutput | drainOutput => cases h

/-! ## Whole schedules -/

/-- **Every schedule that is never late with its input comes to the same as all input first, then
the steps.** -/
lemma amid_after {m : Machine κ} {calls : List HostCall} (h : m.WellFed calls)
    (older : List Emission) (further : List Char) :
    (m.after calls).amid (older ++ m.history HostCall.hands calls) further =
      (m.amid older (m.history HostCall.accepts calls ++ further)).run (calls.count .step) := by
  induction calls generalizing m older with
  | nil => simp [history, run]
  | cons call calls ih =>
      obtain ⟨hfed, hrest⟩ := h
      rw [after_cons, history, ← List.append_assoc, ih hrest]
      by_cases hcall : call = .step
      · subst hcall
        have hsym : m.symbol? = some 'i' →
            (HostCall.step.apply m).history HostCall.accepts calls ++ further = [] ∨
              m.input.items ≠ [] := fun hi => Or.inr (hfed rfl hi)
        rw [HostCall.hands_step, List.append_nil, history, HostCall.accepts_of_offers rfl,
          List.nil_append, List.count_cons_self, run_eq_iterate, run_eq_iterate,
          Function.iterate_succ_apply, apply_step_amid older _ hsym]
      · rw [amid_apply_of_ne_step hcall, List.count_cons_of_ne hcall, history, List.append_assoc]

/-- **Collecting output comes to the same as leaving it.** -/
lemma amid_after_eq_after_filter (m : Machine κ) (calls : List HostCall) (older : List Emission) :
    (m.after calls).amid (older ++ m.history HostCall.hands calls) [] =
      (m.amid older []).after (calls.filter fun call => !call.collects) := by
  induction calls generalizing m older with
  | nil => simp [history]
  | cons call calls ih =>
      rw [after_cons, history, ← List.append_assoc, ih]
      cases hcall : call.collects with
      | true =>
          have hstep : call ≠ .step := by
            rintro rfl
            cases hcall
          rw [amid_apply_of_ne_step hstep,
            HostCall.accepts_of_offers (HostCall.offers_of_collects hcall),
            List.filter_cons_of_neg (by simp [hcall])]
          rfl
      | false =>
          rw [HostCall.hands_of_not_collects hcall, List.append_nil,
            List.filter_cons_of_pos (by simp [hcall]), after_cons,
            apply_amid_of_not_collects hcall]

/-! ## Numbers of steps -/

lemma steps_le_steps_run (k : Nat) (m : Machine κ) : m.steps ≤ (m.run k).steps := by
  induction k with
  | zero => exact Nat.le_refl _
  | succ k ih =>
      rw [run_succ]
      refine ih.trans ?_
      cases hend : (m.run k).hasTerminated with
      | true => rw [HostCall.apply_step_of_terminated hend]
      | false =>
          obtain ⟨m', hstep⟩ := exists_step hend
          rw [HostCall.apply_step_of_ok hstep, steps_of_step hstep]
          exact Nat.le_succ _

/-- A run that made no step changed nothing. -/
lemma run_eq_self_of_steps_eq {k : Nat} {m : Machine κ} (h : (m.run k).steps = m.steps) :
    m.run k = m := by
  rw [run_eq_iterate] at h ⊢
  cases hend : m.hasTerminated with
  | true => exact Function.iterate_fixed (HostCall.apply_step_of_terminated hend) k
  | false =>
      cases k with
      | zero => rfl
      | succ k =>
          obtain ⟨m', hstep⟩ := exists_step hend
          have hle := steps_le_steps_run k m'
          rw [Function.iterate_succ_apply, HostCall.apply_step_of_ok hstep, ← run_eq_iterate] at h
          rw [steps_of_step hstep] at hle
          omega

/-- Runs that made as many steps are the same, even if one was asked for more. -/
lemma run_eq_run_of_steps_eq {j k : Nat} {m : Machine κ} (h : (m.run j).steps = (m.run k).steps) :
    m.run j = m.run k := by
  wlog hle : j ≤ k generalizing j k
  · exact (this h.symm (Nat.le_of_not_le hle)).symm
  obtain ⟨d, rfl⟩ := Nat.exists_eq_add_of_le hle
  rw [run_add] at h ⊢
  exact (run_eq_self_of_steps_eq h.symm).symm

/-- **The schedule of the host does not matter.**  Take two schedules that make the same number of
steps, whether the calls are counted or the steps that were not refused, and that give the same
characters, shared out among their calls in any way.  If neither is late with its input, then both
end with the same machine, and with the same emissions in all.  Schedules that differ only in the
calls that collect output do so in any case. -/
theorem outcome_independent_of_schedule (m : Machine κ) (calls calls' : List HostCall) :
    ((calls.count .step = calls'.count .step ∨ (m.after calls).steps = (m.after calls').steps) →
        m.history HostCall.accepts calls = m.history HostCall.accepts calls' →
        m.WellFed calls → m.WellFed calls' → m.SameOutcome calls calls') ∧
      ((calls.filter fun call => !call.collects) = (calls'.filter fun call => !call.collects) →
        m.SameOutcome calls calls') := by
  constructor
  · intro hsteps hinput hfed hfed'
    have hview := amid_after hfed [] []
    have hview' := amid_after hfed' [] []
    rw [List.nil_append, List.append_nil] at hview hview'
    refine sameOutcome_of_amid_eq ?_
    rw [hview, hview', hinput]
    rcases hsteps with hcount | hmade
    · rw [hcount]
    · rw [hinput] at hview
      refine run_eq_run_of_steps_eq ?_
      rw [← hview, ← hview']
      exact hmade
  · intro hcalls
    have hview := amid_after_eq_after_filter m calls []
    have hview' := amid_after_eq_after_filter m calls' []
    refine sameOutcome_of_amid_eq ?_
    rw [List.nil_append] at hview hview'
    rw [hview, hview', hcalls]

/-- All input at once and all output at the end, against characters given one by one and emissions
taken one by one, with a collection that is refused because it comes too early.  Without any input
the first step reads from an empty queue, and collecting still makes no difference. -/
theorem outcome_independent_of_schedule_one_by_one :
    let start := load "ioin;" [] (⟨[]⟩ : Script)
    let calls : List HostCall := [.feed "ab", .step, .step, .step, .step, .drainOutput]
    let calls' : List HostCall :=
      [.giveChar 'a', .takeOutput, .step, .step, .takeOutput, .giveText "b", .step, .step]
    let starving : List HostCall := [.step, .takeOutput, .step, .drainOutput]
    (start.WellFed calls ∧ start.WellFed calls' ∧
      start.history HostCall.hands calls' = [.char 'a'] ∧ start.SameOutcome calls calls') ∧
      ¬ start.WellFed starving ∧ start.SameOutcome starving [.step, .step] := by
  intro start calls calls' starving
  have hfed : start.WellFed calls := by decide +kernel
  have hfed' : start.WellFed calls' := by decide +kernel
  have hsame := (outcome_independent_of_schedule start calls calls').1 (Or.inl rfl)
    (by decide +kernel) hfed hfed'
  refine ⟨⟨hfed, hfed', by decide +kernel, hsame⟩, by decide +kernel, ?_⟩
  exact (outcome_independent_of_schedule start starving [.step, .step]).2 rfl

end Machine

end Aquarium
