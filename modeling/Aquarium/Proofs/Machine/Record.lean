import Aquarium.Proofs.Machine.Calls

/-!
# The fault on record

A machine keeps two accounts of a failure: its phase says that a fault has ended it, and its record
holds the fault.  They are written apart, and an instruction could change the one without the
other.  It never happens: an instruction leaves the record alone and cannot lead to the phase of a
failure, and a step that fails writes both.  So they agree in every machine that a host can reach
from one that was just loaded (`Recorded.after`).
-/

namespace Aquarium

namespace Machine

variable {κ : Type}

/-- The phase and the record agree on whether a fault has ended the machine. -/
def Recorded (m : Machine κ) : Prop := m.phase = .failed ↔ m.fault?.isSome = true

lemma recorded_load (source : String) (values : List Float) (compass : κ) :
    (load source values compass).Recorded := by
  simp [Recorded, load]

lemma recorded_fail (f : Fault) (m : Machine κ) : (m.fail f).Recorded := by
  simp [Recorded, fail]

lemma not_failed_of_running {m : Machine κ} (h : m.hasTerminated = false) :
    m.phase ≠ .failed := by
  intro hphase
  rw [hasTerminated, hphase] at h
  cases h

namespace Recorded

variable {m : Machine κ}

/-- As long as a machine has not ended, there is nothing on record. -/
lemma fault?_eq_none (h : m.Recorded) (hend : m.hasTerminated = false) : m.fault? = none := by
  have hnone := mt h.mpr (not_failed_of_running hend)
  simpa using hnone

lemma phase_eq (h : m.Recorded) {f : Fault} (hf : m.fault? = some f) : m.phase = .failed :=
  h.mpr (by rw [hf]; rfl)

/-- A machine that has ended has halted on purpose, or a fault is on record. -/
lemma halted_iff (h : m.Recorded) :
    m.phase = .halted ↔ m.hasTerminated = true ∧ m.fault? = none := by
  unfold Recorded at h
  unfold Machine.hasTerminated
  cases hphase : m.phase with
  | running | reading _ => simp [Phase.isFinal]
  | halted => simpa [Phase.isFinal, hphase] using h
  | failed => simpa [Phase.isFinal, hphase, Option.isSome_iff_ne_none] using h

variable [Compass κ] {m' : Machine κ}

/-- A step that succeeds touches neither account, and one that fails writes both. -/
lemma step (h : m.Recorded) (hstep : m.step = .ok m') : m'.Recorded := by
  obtain ⟨hend, ⟨-, rfl⟩ | ⟨cell, -, hv | ⟨f, m₁, -, rfl⟩⟩⟩ := step_cases hstep
  · exact recorded_fail _ _
  · have hphase : m'.phase ≠ .failed :=
      not_failed_of_visit (m := m.arrived) (not_failed_of_running hend) hv
    have hnone : m'.fault? = none := (fault?_of_visit hv).trans (h.fault?_eq_none hend)
    simp [Recorded, hphase, hnone]
  · exact recorded_fail _ _

lemma run (h : m.Recorded) (n : Nat) : (m.run n).Recorded := by
  induction n generalizing m with
  | zero => exact h
  | succ n ih =>
      rw [Machine.run]
      cases hstep : m.step with
      | ok m' => exact ih (h.step hstep)
      | error f => exact h

/-- **The phase and the record agree at all times.** -/
lemma after (h : m.Recorded) (calls : List HostCall) : (m.after calls).Recorded :=
  after_keeps (fun _ _ _ hm => hm) (fun _ _ hm hs => hm.step hs) calls m h

end Recorded

end Machine

end Aquarium
