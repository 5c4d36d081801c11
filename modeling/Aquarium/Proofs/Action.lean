import Mathlib.Tactic

/-!
# Actions that may fault

Stacks and machines are changed by actions of `EStateM`: an action answers with a value or with a
fault, and leaves a state in both cases.  Three properties of an action are used again and again,
and each of them passes from the parts of an action to the whole.

* `Keeps P act`: whatever the action answers, a state with `P` is left with `P`.
* `Raises F act`: every fault of the action satisfies `F`.
* `Follows f act act'`: the second action does after `f` what the first one does before it.  It
  answers the same, and `f` leads from the state that the one leaves to the state that the other
  leaves.  So two runs side by side stay in step.

An invariant of a program is then shown by walking through its text once.
-/

namespace Aquarium

variable {ε σ τ α β : Type}

/-- The state an action leaves, whether it faults or not. -/
def stateAfter (act : EStateM ε σ α) (s : σ) : σ :=
  match act s with
  | .ok _ s' => s'
  | .error _ s' => s'

/-- The action leaves every state that satisfies `P` in a state that satisfies `P`. -/
def Keeps (P : σ → Prop) (act : EStateM ε σ α) : Prop := ∀ s, P s → P (stateAfter act s)

/-- The faults of the action satisfy `F`. -/
def Raises (F : ε → Prop) (act : EStateM ε σ α) : Prop := ∀ s e s', act s = .error e s' → F e

/-- A result with its state changed. -/
def mapState (f : σ → τ) : EStateM.Result ε σ α → EStateM.Result ε τ α
  | .ok a s => .ok a (f s)
  | .error e s => .error e (f s)

/-- The two actions commute with a change of the state. -/
def Follows (f : σ → τ) (act : EStateM ε σ α) (act' : EStateM ε τ α) : Prop :=
  ∀ s, act' (f s) = mapState f (act s)

lemma stateAfter_of_ok {act : EStateM ε σ α} {s s' : σ} {a : α} (h : act s = .ok a s') :
    stateAfter act s = s' := by
  rw [stateAfter, h]

lemma stateAfter_of_error {act : EStateM ε σ α} {s s' : σ} {e : ε} (h : act s = .error e s') :
    stateAfter act s = s' := by
  rw [stateAfter, h]

@[simp] lemma mapState_id (r : EStateM.Result ε σ α) : mapState id r = r := by
  cases r <;> rfl

/-- An action is known by any property that its faults are known to have. -/
lemma Raises.mono {F G : ε → Prop} {act : EStateM ε σ α} (h : Raises F act)
    (hFG : ∀ e, F e → G e) : Raises G act :=
  fun s e s' he => hFG e (h s e s' he)

/-! ## Single actions -/

lemma keeps_pure (P : σ → Prop) (a : α) : Keeps P (pure a : EStateM ε σ α) :=
  fun _ hs => hs

lemma keeps_throw (P : σ → Prop) (e : ε) : Keeps P (throw e : EStateM ε σ α) :=
  fun _ hs => hs

/-- A change of the state has to keep the property; it never faults. -/
lemma keeps_modify {P : σ → Prop} {g : σ → σ} (h : ∀ s, P s → P (g s)) :
    Keeps P (modify g : EStateM ε σ PUnit) :=
  fun s hs => h s hs

lemma raises_pure (F : ε → Prop) (a : α) : Raises F (pure a : EStateM ε σ α) := by
  intro s e s' h
  cases h

/-- The fault that is thrown is the only one. -/
lemma raises_throw {F : ε → Prop} {e : ε} (h : F e) : Raises F (throw e : EStateM ε σ α) := by
  intro s e' s' he
  cases he
  exact h

lemma raises_modify (F : ε → Prop) (g : σ → σ) : Raises F (modify g : EStateM ε σ PUnit) := by
  intro s e s' h
  cases h

lemma follows_pure (f : σ → τ) (a : α) :
    Follows f (pure a : EStateM ε σ α) (pure a : EStateM ε τ α) :=
  fun _ => rfl

lemma follows_throw (f : σ → τ) (e : ε) :
    Follows f (throw e : EStateM ε σ α) (throw e : EStateM ε τ α) :=
  fun _ => rfl

/-- Two changes of the state stay in step if they commute with the change of view. -/
lemma follows_modify {f : σ → τ} {g : σ → σ} {g' : τ → τ} (h : ∀ s, g' (f s) = f (g s)) :
    Follows f (modify g : EStateM ε σ PUnit) (modify g' : EStateM ε τ PUnit) := by
  intro s
  show EStateM.Result.ok PUnit.unit (g' (f s)) = EStateM.Result.ok PUnit.unit (f (g s))
  rw [h]

/-! ## Sequences of actions -/

/-- An action followed by another one either goes on with the answer of the first, or ends with
its fault. -/
lemma bind_apply (act : EStateM ε σ α) (next : α → EStateM ε σ β) (s : σ) :
    (act >>= next) s =
      match act s with
      | .ok a s' => next a s'
      | .error e s' => .error e s' := rfl

/-- A property that both parts of a sequence keep is kept by the sequence, also when the first part
faults. -/
lemma Keeps.bind {P : σ → Prop} {act : EStateM ε σ α} {next : α → EStateM ε σ β}
    (h : Keeps P act) (hnext : ∀ a, Keeps P (next a)) : Keeps P (act >>= next) := by
  intro s hs
  have hs' := h s hs
  cases hact : act s with
  | ok a s' =>
      rw [stateAfter_of_ok hact] at hs'
      have happly : (act >>= next) s = next a s' := by rw [bind_apply, hact]
      rw [stateAfter, happly]
      exact hnext a s' hs'
  | error e s' =>
      rw [stateAfter_of_error hact] at hs'
      have happly : (act >>= next) s = .error e s' := by rw [bind_apply, hact]
      rw [stateAfter_of_error happly]
      exact hs'

/-- The faults of a sequence are the faults of its parts. -/
lemma Raises.bind {F : ε → Prop} {act : EStateM ε σ α} {next : α → EStateM ε σ β}
    (h : Raises F act) (hnext : ∀ a, Raises F (next a)) : Raises F (act >>= next) := by
  intro s e s' he
  rw [bind_apply] at he
  cases hact : act s with
  | ok a t =>
      rw [hact] at he
      exact hnext a t e s' he
  | error e' t =>
      rw [hact] at he
      cases he
      exact h s _ _ hact

/-- Two sequences stay in step from a state at which their first actions are, if what comes next
always does. -/
lemma bind_eq_mapState {f : σ → τ} {act : EStateM ε σ α} {act' : EStateM ε τ α}
    {next : α → EStateM ε σ β} {next' : α → EStateM ε τ β} {s : σ}
    (h : act' (f s) = mapState f (act s)) (hnext : ∀ a, Follows f (next a) (next' a)) :
    (act' >>= next') (f s) = mapState f ((act >>= next) s) := by
  rw [bind_apply, bind_apply, h]
  cases act s with
  | ok a s' => exact hnext a s'
  | error e s' => rfl

end Aquarium
