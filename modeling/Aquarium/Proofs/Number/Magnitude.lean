import Aquarium.Number.Shortest
import Aquarium.Proofs.Number.Exact

/-!
# The magnitudes of doubles

Counted in units, the magnitudes of the finite doubles are the numbers `q * 2 ^ k` with at most 53
bits in `q` (`IsMagnitude`).  The `significand` of a magnitude is what is left without its spare
bits, and it has all 53 bits unless there are none to spare.

The rounding interval of a magnitude is `Span.ofUnits`, in quarters of a unit.  Its ends lie half
way to the neighbouring magnitudes: no other magnitude has its midpoint inside
(`IsMagnitude.high_le`, `IsMagnitude.le_low`), and the ends are such midpoints
(`IsMagnitude.exists_below`, `IsMagnitude.exists_above`).  Above the largest magnitude there is no
neighbour, and the upper end is the limit from which on numbers are too large, `overflowUnits`.
-/

namespace Aquarium.Number

/-- The magnitudes of the finite doubles, in units. -/
def IsMagnitude (units : Nat) : Prop := ∃ q k, q < 2 ^ 53 ∧ k ≤ 2045 ∧ units = q * 2 ^ k

/-- A number of units without the bits a double has no room for. -/
def significand (units : Nat) : Nat := units >>> spareBits units

/-- Half a step above the largest magnitude.  From here on numbers are rounded to infinity. -/
def overflowUnits : Nat := (2 ^ 54 - 1) * 2 ^ 2044

variable {u w : Nat}

/-- The limit in terms of a power that is not written out, since it is too large to be computed
with. -/
lemma overflowUnits_eq {s : Nat} (hs : s = 2044) : overflowUnits = (2 ^ 54 - 1) * 2 ^ s := by
  rw [hs, overflowUnits]

lemma isMagnitude_zero : IsMagnitude 0 := ⟨0, 0, by norm_num, by norm_num, rfl⟩

lemma isMagnitude_of_read {v : Float} {negative : Bool} (h : read v = .finite negative u) :
    IsMagnitude u :=
  exists_significand_of_read h

namespace IsMagnitude

/-! ## Significands -/

lemma spareBits_le (hu : IsMagnitude u) : spareBits u ≤ 2045 := by
  obtain ⟨q, k, hq, hk, rfl⟩ := hu
  obtain ⟨-, -, hspare⟩ := exists_significand hq k
  exact hspare.trans hk

/-- Nothing is lost with the spare bits of a magnitude. -/
lemma eq_significand_mul (hu : IsMagnitude u) : u = significand u * 2 ^ spareBits u := by
  obtain ⟨q, k, hq, -, rfl⟩ := hu
  obtain ⟨m, hm, -⟩ := exists_significand hq k
  rw [significand, Nat.shiftRight_eq_div_pow]
  exact (Nat.div_mul_cancel ⟨m, hm.trans (Nat.mul_comm _ _)⟩).symm

lemma significand_lt (hu : IsMagnitude u) : significand u < 2 ^ 53 :=
  (significand_bounds hu.eq_significand_mul).1

/-- A significand is short only if there are no spare bits. -/
lemma le_significand (hu : IsMagnitude u) : spareBits u = 0 ∨ 2 ^ 52 ≤ significand u :=
  (significand_bounds hu.eq_significand_mul).2

lemma significand_pos (hu : IsMagnitude u) (hpos : 0 < u) : 0 < significand u := by
  rw [hu.eq_significand_mul] at hpos
  exact Nat.pos_of_mul_pos_right hpos

/-- A magnitude is the reading of a double of either sign. -/
lemma read_ofUnits (hu : IsMagnitude u) (negative : Bool) :
    read (ofUnits negative u) = .finite negative u :=
  Number.read_ofUnits hu.eq_significand_mul (Nat.lt_succ_of_le hu.spareBits_le) negative

lemma two_pow_dvd (hu : IsMagnitude u) : 2 ^ spareBits u ∣ u :=
  Dvd.intro_left _ hu.eq_significand_mul.symm

end IsMagnitude

/-! ## The ends of a rounding interval -/

lemma span_high (u : Nat) : (Span.ofUnits u).high = 4 * u + 2 * 2 ^ spareBits u := by
  simp only [Span.ofUnits, Nat.shiftLeft_eq, Nat.one_mul]

/-- The doubles below a power of two are half as far apart as those above. -/
lemma span_low_of_power (h : significand u = 2 ^ 52) (hspare : spareBits u ≠ 0) :
    (Span.ofUnits u).low = 4 * u - 2 ^ spareBits u := by
  have hpower : u >>> spareBits u = 1 <<< 52 := h.trans (Nat.one_shiftLeft 52).symm
  simp only [Span.ofUnits, hpower, hspare, ne_eq, not_false_eq_true, and_self, if_true,
    Nat.shiftLeft_eq, Nat.one_mul]

lemma span_low_of_not_power (h : ¬ (significand u = 2 ^ 52 ∧ spareBits u ≠ 0)) :
    (Span.ofUnits u).low = 4 * u - 2 * 2 ^ spareBits u := by
  have hpower : ¬ (u >>> spareBits u = 2 ^ 52 ∧ spareBits u ≠ 0) := h
  simp only [Span.ofUnits, Nat.shiftLeft_eq, Nat.one_mul, if_neg hpower]

lemma span_closed (u : Nat) : (Span.ofUnits u).closed = true ↔ significand u % 2 = 0 := by
  simp only [Span.ofUnits, significand, decide_eq_true_eq]

/-- Two multiples of a step are at least a step apart. -/
lemma add_step_le {a b step : Nat} (ha : step ∣ a) (hb : step ∣ b) (h : a < b) : a + step ≤ b :=
  Nat.le_of_lt_add_of_dvd (Nat.add_lt_add_right h step) (Nat.dvd_add_self_right.mpr ha) hb

namespace IsMagnitude

/-- The next magnitude is at least one step above. -/
lemma high_le (hu : IsMagnitude u) (hw : IsMagnitude w) (h : u < w) :
    (Span.ofUnits u).high ≤ 2 * (u + w) := by
  have hstep : u + 2 ^ spareBits u ≤ w := by
    obtain ⟨q, k, hq, -, rfl⟩ := hw
    rcases le_or_gt (spareBits u) k with hk | hk
    · exact add_step_le hu.two_pow_dvd (Dvd.dvd.mul_left (Nat.pow_dvd_pow 2 hk) q) h
    · -- a magnitude with fewer spare bits is smaller
      have hsmall : q * 2 ^ k < 2 ^ 53 * 2 ^ k :=
        Nat.mul_lt_mul_of_pos_right hq (Nat.two_pow_pos k)
      exact absurd (shift_le (spareBits_spec u).2 (h.trans hsmall)) hk.not_ge
  rw [span_high]
  omega

/-- The magnitude before is at least one step below, and half a step below a power of two. -/
lemma le_low (hu : IsMagnitude u) (hw : IsMagnitude w) (h : w < u) :
    2 * (u + w) ≤ (Span.ofUnits u).low := by
  obtain ⟨q, k, hq, -, rfl⟩ := hw
  have hsig := hu.eq_significand_mul
  rcases le_or_gt (spareBits u) k with hk | hk
  · have hstep := add_step_le (Dvd.dvd.mul_left (Nat.pow_dvd_pow 2 hk) q) hu.two_pow_dvd h
    by_cases hpower : significand u = 2 ^ 52 ∧ spareBits u ≠ 0
    · rw [span_low_of_power hpower.1 hpower.2]
      omega
    · rw [span_low_of_not_power hpower]
      omega
  · have hlead : 2 ^ 52 ≤ significand u := hu.le_significand.resolve_left (by omega)
    -- half a step, which is whole because there are spare bits
    obtain ⟨s, hs⟩ : ∃ s, spareBits u = s + 1 := Nat.exists_eq_succ_of_ne_zero (by omega)
    have hbelow : q * 2 ^ k + 2 ^ s ≤ 2 ^ 52 * 2 ^ (s + 1) := by
      calc q * 2 ^ k + 2 ^ s ≤ (2 ^ 53 - 1) * 2 ^ s + 2 ^ s :=
            Nat.add_le_add_right (Nat.mul_le_mul (Nat.le_sub_one_of_lt hq)
              (Nat.pow_le_pow_right Nat.two_pos (by omega))) _
        _ = 2 ^ 52 * 2 ^ (s + 1) := by ring
    rw [hs] at hsig
    have hpow : 2 ^ (s + 1) = 2 * 2 ^ s := by ring
    by_cases hpower : significand u = 2 ^ 52
    · rw [span_low_of_power hpower (by omega), hs]
      rw [hpower] at hsig
      omega
    · rw [span_low_of_not_power (fun h' => hpower h'.1), hs]
      have hmore : (2 ^ 52 + 1) * 2 ^ (s + 1) ≤ u := by
        rw [hsig]
        exact Nat.mul_le_mul_right _ (by omega)
      rw [Nat.succ_mul] at hmore
      omega

/-- The lower end is half way to a magnitude. -/
lemma exists_below (hu : IsMagnitude u) (hpos : 0 < u) :
    ∃ w, IsMagnitude w ∧ w < u ∧ (Span.ofUnits u).low = 2 * (u + w) := by
  have hsig := hu.eq_significand_mul
  have hlt := hu.significand_lt
  have hspare := hu.spareBits_le
  have hsigpos := hu.significand_pos hpos
  by_cases hpower : significand u = 2 ^ 52 ∧ spareBits u ≠ 0
  · obtain ⟨s, hs⟩ := Nat.exists_eq_succ_of_ne_zero hpower.2
    refine ⟨(2 ^ 53 - 1) * 2 ^ s, ⟨2 ^ 53 - 1, s, by omega, by omega, rfl⟩, ?_⟩
    have hpow : 2 ^ (s + 1) = 2 * 2 ^ s := by ring
    have hspos := Nat.two_pow_pos s
    rw [span_low_of_power hpower.1 hpower.2, hs, Nat.succ_eq_add_one, hpow]
    rw [hpower.1, hs, Nat.succ_eq_add_one, hpow] at hsig
    omega
  · refine ⟨(significand u - 1) * 2 ^ spareBits u, ⟨_, _, by omega, hspare, rfl⟩, ?_⟩
    have hspos := Nat.two_pow_pos (spareBits u)
    have hstep : (significand u - 1) * 2 ^ spareBits u + 2 ^ spareBits u = u := by
      rw [← Nat.succ_mul, Nat.succ_eq_add_one, Nat.sub_add_cancel hsigpos, ← hsig]
    rw [span_low_of_not_power hpower]
    omega

/-- The upper end is half way to a magnitude, or it is the limit of what can be rounded. -/
lemma exists_above (hu : IsMagnitude u) :
    (∃ w, IsMagnitude w ∧ u < w ∧ (Span.ofUnits u).high = 2 * (u + w)) ∨
      (Span.ofUnits u).high = 4 * overflowUnits := by
  have hsig := hu.eq_significand_mul
  have hlt := hu.significand_lt
  have hspare := hu.spareBits_le
  have hspos := Nat.two_pow_pos (spareBits u)
  rw [span_high]
  by_cases hcarry : significand u + 1 = 2 ^ 53
  · by_cases hlast : spareBits u = 2045
    · refine Or.inr ?_
      obtain ⟨s, hs⟩ : ∃ s, spareBits u = s + 1 := ⟨2044, hlast⟩
      have hodd : significand u = 2 ^ 53 - 1 := by omega
      rw [hs, Nat.pow_succ] at hsig ⊢
      rw [hodd] at hsig
      rw [overflowUnits_eq (s := s) (by omega)]
      omega
    · refine Or.inl ⟨u + 2 ^ spareBits u, ⟨2 ^ 52, spareBits u + 1, by omega, by omega, ?_⟩, ?_⟩
      · calc u + 2 ^ spareBits u = (significand u + 1) * 2 ^ spareBits u := by
              rw [Nat.succ_mul, ← hsig]
          _ = 2 ^ 52 * 2 ^ (spareBits u + 1) := by rw [hcarry]; ring
      · omega
  · refine Or.inl ⟨u + 2 ^ spareBits u, ⟨significand u + 1, spareBits u, by omega, hspare, ?_⟩, ?_⟩
    · rw [Nat.succ_mul, ← hsig]
    · omega

/-- The interval ends at the limit at the latest, and below it if its ends belong to it. -/
lemma high_le_overflow (hu : IsMagnitude u) :
    (Span.ofUnits u).high ≤ 4 * overflowUnits ∧
      ((Span.ofUnits u).closed = true → (Span.ofUnits u).high < 4 * overflowUnits) := by
  have hsig := hu.eq_significand_mul
  have hlt := hu.significand_lt
  obtain ⟨s, hs⟩ : ∃ s, s = 2044 := ⟨_, rfl⟩
  have hbound : 2 ^ spareBits u ≤ 2 ^ s * 2 := by
    have hspare : spareBits u ≤ s + 1 := by rw [hs]; exact hu.spareBits_le
    exact Nat.pow_le_pow_right Nat.two_pos hspare
  have hpos := Nat.two_pow_pos s
  have hhigh : (Span.ofUnits u).high = (4 * significand u + 2) * 2 ^ spareBits u := by
    rw [span_high]
    nth_rewrite 1 [hsig]
    ring
  rw [hhigh, overflowUnits_eq hs]
  generalize 2 ^ spareBits u = step at hbound
  constructor
  · calc (4 * significand u + 2) * step ≤ (2 ^ 55 - 2) * (2 ^ s * 2) :=
          Nat.mul_le_mul (by omega) hbound
      _ = 4 * ((2 ^ 54 - 1) * 2 ^ s) := by omega
  · intro hclosed
    have heven := (span_closed u).mp hclosed
    calc (4 * significand u + 2) * step ≤ (2 ^ 55 - 6) * (2 ^ s * 2) :=
          Nat.mul_le_mul (by omega) hbound
      _ < 4 * ((2 ^ 54 - 1) * 2 ^ s) := by omega

end IsMagnitude

end Aquarium.Number
