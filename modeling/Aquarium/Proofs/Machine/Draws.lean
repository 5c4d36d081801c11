import Aquarium.Proofs.Machine.Queues
import Mathlib.Data.Nat.Count

/-!
# Chance enters through one instruction

A compass is a stream of headings, and a machine draws from it when it executes `x` and at no other
time.  So the compass of a machine is the one it started with, after as many draws as `x` was
executed (`compass_run`), and a machine with another compass is in disguise until it has to draw
(`apply_step_withCompass`).  Where the draws agree, both machines turn the same way
(`apply_step_withCompass_of_spin`), and their runs go on together (`run_withCompass`).
-/

namespace Aquarium

/-! ## A compass as a stream of headings -/

namespace Compass

variable {κ : Type} [Compass κ]

/-- The compass after `j` draws. -/
def after (c : κ) (j : Nat) : κ := (fun c => (draw c).2)^[j] c

/-- The heading that draw `j` gives, counted from zero. -/
def heading (c : κ) (j : Nat) : Heading := (draw (after c j)).1

lemma after_succ (c : κ) (j : Nat) : after c (j + 1) = (draw (after c j)).2 :=
  Function.iterate_succ_apply' _ j c

end Compass

/-- All mirrors but the random one leave the compass as it is, and turn by the heading alone. -/
lemma Mirror.turn_of_ne_random {κ κ' : Type} [Compass κ] [Compass κ'] {mirror : Mirror}
    (h : mirror ≠ .random) (heading : Heading) (c : κ) (c' : κ') :
    mirror.turn heading c' = Prod.map id (fun _ => c') (mirror.turn heading c) := by
  cases mirror with
  | random => exact absurd rfl h
  | arrow | slash | backslash | vertical | horizontal | reverse => rfl

/-- Another compass, as a disguise. -/
def Disguise.swapped {κ κ' : Type} (c' : κ') : Disguise κ κ' where
  stack := id
  input := id
  output := id
  compass _ := c'
  stack_push := Disguise.stack_push_id
  output_write := Disguise.output_write_id

namespace Machine

variable {κ κ' : Type}

/-- The machine with another compass. -/
def withCompass (c' : κ') (m : Machine κ) : Machine κ' := { m with compass := c' }

lemma withCompass_self (m : Machine κ) : m.withCompass m.compass = m := rfl

variable [Compass κ] [Compass κ']

/-! ## One step -/

/-- The compass goes unnoticed in every step that executes no `x`. -/
lemma apply_step_withCompass {m : Machine κ} (h : m.symbol? ≠ some 'x') (c' : κ') :
    HostCall.step.apply (m.withCompass c') = (HostCall.step.apply m).withCompass c' := by
  refine (Disguise.swapped c').apply_step_apply fun c i hc hi => ?_
  refine Disguise.hides_of_stack_eq_id _ rfl ?_ ?_
  · rintro mirror rfl
    refine Mirror.turn_of_ne_random ?_ _ _ _
    rintro rfl
    obtain rfl := Instruction.ofChar?_eq_random_iff.mp hi
    exact h hc
  · rintro rfl
    exact Disguise.hides_input _ rfl m

/-- A step that executes no `x` draws nothing. -/
lemma compass_apply_step {m : Machine κ} (h : m.symbol? ≠ some 'x') :
    (HostCall.step.apply m).compass = m.compass := by
  have hself := apply_step_withCompass h m.compass
  rw [withCompass_self] at hself
  rw [hself]
  rfl

/-- A step that executes `x` draws once, and turns to where the compass says. -/
lemma apply_step_of_spin {m : Machine κ} (h : m.symbol? = some 'x') :
    HostCall.step.apply m =
      { m.arrived with
        pointer := { m.arrived.pointer with heading := (Compass.draw m.compass).1 }
        compass := (Compass.draw m.compass).2 } :=
  HostCall.apply_step_of_ok <|
    step_of_executes (executes_iff.mpr h) (Instruction.ofChar?_eq_random_iff.mpr rfl) rfl

/-- Two compasses that give the same heading turn the machine the same way. -/
lemma apply_step_withCompass_of_spin {m : Machine κ} (h : m.symbol? = some 'x') {c' : κ'}
    (hdraw : (Compass.draw m.compass).1 = (Compass.draw c').1) :
    HostCall.step.apply (m.withCompass c') =
      (HostCall.step.apply m).withCompass (Compass.draw c').2 := by
  have h' : (m.withCompass c').symbol? = some 'x' := h
  rw [apply_step_of_spin h, apply_step_of_spin h', hdraw]
  rfl

/-! ## Whole runs -/

/-- How often `x` is executed in the first `N` steps. -/
def spins (m : Machine κ) (N : Nat) : Nat := Nat.count (fun k => (m.run k).symbol? = some 'x') N

lemma spins_succ_of_spin {m : Machine κ} {N : Nat} (h : (m.run N).symbol? = some 'x') :
    m.spins (N + 1) = m.spins N + 1 := by
  rw [spins, Nat.count_succ, if_pos h, spins]

lemma spins_succ_of_other {m : Machine κ} {N : Nat} (h : (m.run N).symbol? ≠ some 'x') :
    m.spins (N + 1) = m.spins N := by
  rw [spins, Nat.count_succ, if_neg h, spins, Nat.add_zero]

/-- Every execution of `x` is one draw, and nothing else is. -/
lemma compass_run (m : Machine κ) (N : Nat) :
    (m.run N).compass = Compass.after m.compass (m.spins N) := by
  induction N with
  | zero => rfl
  | succ N ih =>
      rw [run_succ]
      by_cases h : (m.run N).symbol? = some 'x'
      · rw [apply_step_of_spin h, spins_succ_of_spin h, Compass.after_succ, ← ih]
      · rw [compass_apply_step h, spins_succ_of_other h, ih]

/-- **Compasses that agree on the draws of a run give the same run.** -/
lemma run_withCompass (m : Machine κ) {c' : κ'} {N : Nat}
    (h : ∀ j < m.spins N, Compass.heading m.compass j = Compass.heading c' j) :
    (m.withCompass c').run N = (m.run N).withCompass (Compass.after c' (m.spins N)) := by
  induction N with
  | zero => rfl
  | succ N ih =>
      by_cases hsymbol : (m.run N).symbol? = some 'x'
      · rw [spins_succ_of_spin hsymbol] at h ⊢
        have hdraw := h (m.spins N) (Nat.lt_succ_self _)
        rw [Compass.heading, ← compass_run] at hdraw
        rw [run_succ, run_succ, ih fun j hj => h j (Nat.lt_succ_of_lt hj),
          apply_step_withCompass_of_spin hsymbol hdraw, Compass.after_succ]
      · rw [spins_succ_of_other hsymbol] at h ⊢
        rw [run_succ, run_succ, ih h, apply_step_withCompass hsymbol]

/-- **Chance enters through `x` only.**  For every source, initial stack and input, a machine has
made as many draws after any number of steps as it has executed `x`, and `x` turns it to the
heading of the next draw.  With another compass that agrees on the first `n` draws, a run that
executes `x` at most `n` times ends in the same machine, but for its compass.  So a run that
executes no `x` is the same with every compass. -/
theorem chance_enters_through_spins (source : String) (values : List Float) (input : String)
    (c : κ) (c' : κ') (N : Nat) :
    let start := (load source values c).feed input
    let start' := (load source values c').feed input
    (start.run N).compass = Compass.after c (start.spins N) ∧
      ((start.run N).symbol? = some 'x' →
        (start.run (N + 1)).pointer.heading = Compass.heading c (start.spins N)) ∧
      (∀ n, (∀ j < n, Compass.heading c j = Compass.heading c' j) → start.spins N ≤ n →
        start'.run N = (start.run N).withCompass (Compass.after c' (start.spins N))) ∧
      ((∀ k < N, (start.run k).symbol? ≠ some 'x') →
        start'.run N = (start.run N).withCompass c') := by
  intro start start'
  have hstart : start.compass = c := rfl
  have hstart' : start' = start.withCompass c' := rfl
  refine ⟨compass_run start N, ?_, ?_, ?_⟩
  · intro hsymbol
    rw [run_succ, apply_step_of_spin hsymbol, compass_run start N]
    rfl
  · intro n hagree hspins
    rw [hstart']
    exact run_withCompass start fun j hj => hagree j (hj.trans_le hspins)
  · intro hnone
    have hspins : start.spins N = 0 := Nat.count_of_forall_not hnone
    have hrun : (start.withCompass c').run N =
        (start.run N).withCompass (Compass.after c' (start.spins N)) :=
      run_withCompass start fun j hj => by rw [hspins] at hj; omega
    rw [hspins] at hrun
    exact hrun

/-- A program that writes its own `x`, over the cell of the digit three.  The first compass has one
heading to give and then says north, the other goes on to the west.  Until the `x` is executed in
the tenth step the compass is of no account, and in that step both say south. -/
theorem chance_enters_through_spins_written_by_the_program :
    let start := (load "'x'30p" [] (⟨[.south]⟩ : Script)).feed ""
    let start' := (load "'x'30p" [] (⟨[.south, .west]⟩ : Script)).feed ""
    start'.run 9 = (start.run 9).withCompass ⟨[.south, .west]⟩ ∧
      (start.run 9).symbol? = some 'x' ∧ start.spins 10 = 1 ∧
      (start.run 10).pointer.heading = .south ∧ (start.run 10).compass = ⟨[]⟩ ∧
      start'.run 10 = (start.run 10).withCompass ⟨[.west]⟩ := by
  -- The machines are kept written out: as local definitions they would be evaluated to be compared.
  obtain ⟨-, hturn, -, hsame⟩ := chance_enters_through_spins "'x'30p" [] ""
    (⟨[.south]⟩ : Script) (⟨[.south, .west]⟩ : Script) 9
  obtain ⟨hcompass, -, hagree, -⟩ := chance_enters_through_spins "'x'30p" [] ""
    (⟨[.south]⟩ : Script) (⟨[.south, .west]⟩ : Script) 10
  have hspins : ((load "'x'30p" [] (⟨[.south]⟩ : Script)).feed "").spins 10 = 1 := by
    decide +kernel
  have hsymbol : (((load "'x'30p" [] (⟨[.south]⟩ : Script)).feed "").run 9).symbol? = some 'x' := by
    decide +kernel
  have hfirst : ((load "'x'30p" [] (⟨[.south]⟩ : Script)).feed "").spins 9 = 0 := by decide +kernel
  rw [hspins] at hcompass hagree
  simp only [hfirst, Nat.reduceAdd] at hturn
  exact ⟨hsame (by decide +kernel), hsymbol, hspins, hturn hsymbol, hcompass,
    hagree 1 (by decide) le_rfl⟩

end Machine

end Aquarium
