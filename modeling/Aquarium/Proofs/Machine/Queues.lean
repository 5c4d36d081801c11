import Aquarium.Proofs.Instruction.Catalogue
import Aquarium.Proofs.Machine.Disguise
import Mathlib.Logic.Function.Iterate

/-!
# What else lies in the queues

A machine appends to its output and takes from the front of its input.  It never looks at
emissions that nobody has collected yet, nor at input that lies behind what it reads.  So a
machine with more in its queues (`amid`) makes the same step, and has as much more in its queues
afterwards (`step_amid`).

The exception is the instruction that reads input: on an empty queue it answers minus one, and
then additional input would have been noticed.

It follows that a machine can be followed apart from its output (`silenced`): emissions that wait
to be collected only stand in front of the new ones (`output_apply_step`).
-/

namespace Aquarium

namespace Machine

variable {κ : Type}

/-- The machine with older emissions in front of its output and more input behind its own. -/
def amid (older : List Emission) (further : List Char) (m : Machine κ) : Machine κ :=
  { m with
    output := ⟨older ++ m.output.items⟩
    input := ⟨m.input.items ++ further⟩ }

/-- The machine without the emissions that nobody has collected yet. -/
def silenced (m : Machine κ) : Machine κ := { m with output := {} }

lemma silenced_amid_output (m : Machine κ) : m.silenced.amid m.output.items [] = m := by
  simp only [silenced, amid, List.append_nil]

end Machine

/-- More in the queues, as a disguise. -/
def Disguise.queues {κ : Type} (older : List Emission) (further : List Char) : Disguise κ κ where
  stack := id
  input q := ⟨q.items ++ further⟩
  output q := ⟨older ++ q.items⟩
  compass := id
  stack_push := Disguise.stack_push_id
  output_write q e := by simp only [Queue.write, List.append_assoc]

/-- Further input goes unnoticed as long as there is something to read in front of it. -/
lemma Queue.read_append {q : Queue Char} {further : List Char} (h : further = [] ∨ q.items ≠ []) :
    (⟨q.items ++ further⟩ : Queue Char).read =
      q.read.map (Prod.map id fun q => ⟨q.items ++ further⟩) := by
  obtain ⟨items⟩ := q
  cases items with
  | cons c rest => rfl
  | nil =>
      obtain rfl := h.resolve_right (absurd rfl)
      rfl

namespace Machine

variable {κ : Type} [Compass κ] (older : List Emission) (further : List Char)

/-- A machine with more in its queues is in disguise, unless it is about to read from an empty
input. -/
lemma hides_queues {m : Machine κ}
    (h : m.symbol? = some 'i' → further = [] ∨ m.input.items ≠ []) (c : Char) (i : Instruction)
    (hc : m.symbol? = some c) (hi : Instruction.ofChar? c = some i) :
    (Disguise.queues older further).Hides m i := by
  refine Disguise.hides_of_stack_eq_id _ rfl ?_ ?_
  · rintro mirror rfl
    rfl
  · rintro rfl
    obtain rfl := Instruction.ofChar?_eq_input_iff.mp hi
    exact Queue.read_append (h hc)

/-- **More in the queues changes no step.**  The step is the same, and what was in the queues in
addition is still there after it. -/
theorem step_amid {m : Machine κ}
    (h : m.symbol? = some 'i' → further = [] ∨ m.input.items ≠ []) :
    (m.amid older further).step = m.step.map (amid older further) :=
  (Disguise.queues older further).step_apply (hides_queues older further h)

/-- The same for the step that a host asks for. -/
lemma apply_step_amid {m : Machine κ}
    (h : m.symbol? = some 'i' → further = [] ∨ m.input.items ≠ []) :
    HostCall.step.apply (m.amid older further) = (HostCall.step.apply m).amid older further :=
  (Disguise.queues older further).apply_step_apply (hides_queues older further h)

/-! ## A machine apart from its output -/

/-- A step apart from the output depends on the machine apart from its output. -/
lemma silenced_apply_step (m : Machine κ) :
    (HostCall.step.apply m).silenced = (HostCall.step.apply m.silenced).silenced := by
  conv_lhs => rw [← silenced_amid_output m, apply_step_amid _ _ fun _ => Or.inl rfl]
  simp only [silenced, amid, List.append_nil]

/-- A step adds its own emissions to those that wait already. -/
lemma output_apply_step (m : Machine κ) :
    (HostCall.step.apply m).output.items =
      m.output.items ++ (HostCall.step.apply m.silenced).output.items := by
  conv_lhs => rw [← silenced_amid_output m, apply_step_amid _ _ fun _ => Or.inl rfl]
  rfl

/-- A run is the repetition of steps, and steps that are refused change nothing. -/
lemma run_eq_iterate (k : Nat) (m : Machine κ) : m.run k = HostCall.step.apply^[k] m := by
  induction k generalizing m with
  | zero => rfl
  | succ k ih =>
      rw [run, Function.iterate_succ_apply]
      cases hend : m.hasTerminated with
      | true =>
          have hfixed := HostCall.apply_step_of_terminated hend
          rw [step_of_terminated hend, hfixed, Function.iterate_fixed hfixed]
      | false =>
          obtain ⟨m', hstep⟩ := exists_step hend
          rw [hstep, HostCall.apply_step_of_ok hstep]
          exact ih m'

lemma run_succ (k : Nat) (m : Machine κ) : m.run (k + 1) = HostCall.step.apply (m.run k) := by
  rw [run_eq_iterate, run_eq_iterate, Function.iterate_succ_apply']

/-- A run of some steps, and then of some more. -/
lemma run_add (j k : Nat) (m : Machine κ) : m.run (j + k) = (m.run j).run k := by
  simp only [run_eq_iterate, Nat.add_comm j k, Function.iterate_add_apply]

end Machine

end Aquarium
