import Aquarium.Proofs.Machine.Queues
import Aquarium.Proofs.Stack.Bottom

/-!
# Programs above a deeper stack

A program that is started on a deeper stack runs as it would without the additional values, until
it notices them.  It can notice them only while its bottommost frame is in use, by an instruction
that looks at the bottom or by not running short of values where it would have done so before
(`TouchesBottom`).  Up to that moment the additional values are a disguise of the stack, and the
two runs differ by it alone (`run_underlaid`).
-/

namespace Aquarium

/-- A deeper stack, as a disguise. -/
def Disguise.deeper {κ : Type} (b : List Float) : Disguise κ κ where
  stack := Stack.underlay b
  input := id
  output := id
  compass := id
  stack_push := Stack.underlay_push b
  output_write := Disguise.output_write_id

/-- Whether an instruction depends on what is at the bottom of the frame in use. -/
def Instruction.seesBottom : Instruction → Bool
  | .stack command => command.seesBottom
  | _ => false

namespace Machine

variable {κ : Type}

/-- The machine with additional values at the bottom of its stack, listed bottom first. -/
def underlaid (b : List Float) (m : Machine κ) : Machine κ :=
  { m with stack := m.stack.underlay b }

lemma runsShort_onStack {α : Type} {act : StackM α} {m : Machine κ} (h : RunsShort (act m.stack)) :
    RunsShort (onStack act m) := by
  revert h
  simp only [onStack]
  cases act m.stack with
  | ok a s => exact False.elim
  | error f s => exact id

lemma runsShort_onGrid {α : Type} {act : EStateM Fault (Stack × Grid) α} {m : Machine κ}
    (h : RunsShort (act (m.stack, m.grid))) : RunsShort (onGrid act m) := by
  revert h
  simp only [onGrid]
  cases act (m.stack, m.grid) with
  | ok a s => exact False.elim
  | error f s => exact id

variable [Compass κ]

/-- The next step can notice what is beneath the bottom of the stack.  The bottommost frame is in
use, and the step executes an instruction that looks at the bottom or it runs short of values. -/
def TouchesBottom (m : Machine κ) : Prop :=
  m.stack.depth = 0 ∧
    (m.symbol? ∈ ['\x7d', '\x7b', 'r', 'l', ']'].map some ∨
      (HostCall.step.apply m).fault?.any Fault.isUnderflow = true)

instance (m : Machine κ) : Decidable m.TouchesBottom := inferInstanceAs (Decidable (_ ∧ _))

/-- A deeper stack hides from an instruction that stays above the bottom. -/
lemma hides_deeper (b : List Float) {m : Machine κ} {i : Instruction}
    (h : m.stack.archive ≠ [] ∨
      i.seesBottom = false ∧ ¬ RunsShort (execute i m)) :
    (Disguise.deeper b).Hides m i := by
  have hlong : m.stack.archive ≠ [] ∨ ¬ RunsShort (execute i m) := h.imp_right And.right
  cases i with
  | literal | skip | string | halt | idle => trivial
  | mirror => rfl
  | input => exact Disguise.hides_input _ rfl m
  | skipIfZero | printChar | printNumber =>
      refine Stack.pop_underlay b (hlong.imp_right fun hlong hshort => hlong ?_)
      exact (runsShort_onStack hshort).bind _
  | jump =>
      refine Stack.popTwo_underlay b (hlong.imp_right fun hlong hshort => hlong ?_)
      exact (runsShort_onStack hshort).bind _
  | arithmetic op =>
      exact Stack.compute_underlay b (hlong.imp_right fun hlong hshort =>
        hlong (runsShort_onStack hshort))
  | grid command =>
      exact Stack.grid_underlay b (hlong.imp_right fun hlong hshort =>
        hlong (runsShort_onGrid hshort))
  | stack command =>
      refine Stack.command_underlay b (h.imp_right fun hstays => ?_)
      exact ⟨hstays.1, fun hshort => hstays.2 (runsShort_onStack hshort)⟩

/-- An instruction that runs short of values ends the machine with that fault. -/
lemma underflow_of_runsShort {m : Machine κ} {c : Char} {i : Instruction}
    (hc : m.symbol? = some c) (hi : Instruction.ofChar? c = some i)
    (h : RunsShort (execute i m.arrived)) :
    (HostCall.step.apply m).fault?.any Fault.isUnderflow = true := by
  cases hexecute : execute i m.arrived with
  | ok a m' =>
      rw [hexecute] at h
      exact h.elim
  | error f m' =>
      have hstep := step_of_executes_error (executes_iff.mpr hc) hi hexecute
      rw [hexecute] at h
      rw [HostCall.apply_step_of_ok hstep]
      exact h

/-- A step that does not touch the bottom is the same on a deeper stack. -/
lemma apply_step_underlaid (b : List Float) {m : Machine κ} (h : ¬ m.TouchesBottom) :
    HostCall.step.apply (m.underlaid b) = (HostCall.step.apply m).underlaid b := by
  refine (Disguise.deeper b).apply_step_apply fun c i hc hi => ?_
  refine hides_deeper b (m := m.arrived) ?_
  by_cases harchive : m.stack.archive = []
  · have hstays := not_or.mp (not_and.mp h (List.length_eq_zero_iff.mpr harchive))
    refine Or.inr ⟨?_, fun hshort => hstays.2 (underflow_of_runsShort hc hi hshort)⟩
    by_contra hsees
    rw [Bool.not_eq_false] at hsees
    rw [hc] at hstays
    exact hstays.1 (List.mem_map_of_mem (Instruction.mem_family (fun _ => rfl) hi hsees))
  · exact Or.inl harchive

/-- The same for a run none of whose steps touches the bottom. -/
lemma run_underlaid (b : List Float) {m : Machine κ} {N : Nat}
    (h : ∀ k < N, ¬ (m.run k).TouchesBottom) :
    (m.underlaid b).run N = (m.run N).underlaid b := by
  induction N with
  | zero => rfl
  | succ N ih =>
      rw [run_succ, run_succ, ih fun k hk => h k (Nat.lt_succ_of_lt hk),
        apply_step_underlaid b (h N (Nat.lt_succ_self N))]

/-- **Additional values at the bottom of the stack do not matter** to a program that does not touch
the bottom.  As long as no step does, a program started on the values `b ++ values` is in the same
state as one started on `values`, except that its bottommost frame has `b` beneath its values. -/
theorem bottom_goes_unnoticed (source : String) (values b : List Float) (compass : κ)
    (input : String) (N : Nat) :
    let start := (load source values compass).feed input
    let start' := (load source (b ++ values) compass).feed input
    (∀ k < N, ¬ (start.run k).TouchesBottom) →
      start'.run N = (start.run N).underlaid b := by
  intro start start' h
  have hstart : start' = start.underlaid b := by
    simp only [start', start, load, feed, underlaid, Stack.ofValues_append]
  rw [hstart]
  exact run_underlaid b h

/-- A frame is opened above the bottommost one, measured, reversed and closed again.  The additional
value lies beneath the archived frame meanwhile, and beneath the frame in use afterwards. -/
theorem bottom_goes_unnoticed_below_substack :
    let values := [Number.ofNat 1, Number.ofNat 2, Number.ofNat 3]
    let start := (load "2[lr]+;" values (⟨[]⟩ : Script)).feed ""
    let start' := (load "2[lr]+;" ([Number.ofNat 9] ++ values) (⟨[]⟩ : Script)).feed ""
    (∀ k < 7, ¬ (start.run k).TouchesBottom) ∧
      start'.run 4 = (start.run 4).underlaid [Number.ofNat 9] ∧
      (start'.run 4).stack.archive.map Frame.values = [[Number.ofNat 1, Number.ofNat 9]] ∧
      start'.run 7 = (start.run 7).underlaid [Number.ofNat 9] ∧
      (start'.run 7).stack.bottomUp =
        [Number.ofNat 9, Number.ofNat 1, Number.ofNat 2, Number.ofNat 5] := by
  have hclear : ∀ k < 7, ¬ (((load "2[lr]+;" [Number.ofNat 1, Number.ofNat 2, Number.ofNat 3]
      (⟨[]⟩ : Script)).feed "").run k).TouchesBottom := by decide +kernel
  refine ⟨hclear, ?_, by decide +kernel, ?_, by decide +kernel⟩
  · exact bottom_goes_unnoticed _ _ [Number.ofNat 9] _ _ 4 fun k hk => hclear k (by omega)
  · exact bottom_goes_unnoticed _ _ [Number.ofNat 9] _ _ 7 hclear

end Machine

end Aquarium
