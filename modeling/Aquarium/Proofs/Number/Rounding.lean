import Aquarium.Proofs.Number.Nearest

/-!
# Rounded results

The result of an operation on doubles is `ofRatio` of the exact result, and `ofRatio` rounds to
nearest with ties to even (`roundsTo_ofRatio`), or to infinity what is too large
(`read_ofRatio_of_overflow`).  It drops the spare bits of the quotient and rounds what is left to a
whole number (`roundDiv_nearest`).  Magnitudes with fewer spare bits are too small to be nearer.
-/

namespace Aquarium.Number

/-! ## Rounding to a whole number -/

/-- A rounded quotient is off by at most a half, and by a half only if it is even. -/
lemma roundDiv_spec (num : Nat) {den : Nat} (hden : 0 < den) :
    2 * |(num : ℤ) - roundDiv num den * den| ≤ den ∧
      (2 * |(num : ℤ) - roundDiv num den * den| = den → roundDiv num den % 2 = 0) := by
  have hmod := Nat.mod_lt num hden
  have hnum : (num : ℤ) = den * (num / den : Nat) + (num % den : Nat) := by
    exact_mod_cast (Nat.div_add_mod num den).symm
  simp only [roundDiv]
  generalize num / den = quotient at hnum ⊢
  generalize num % den = rest at hnum hmod ⊢
  have hdown : |(num : ℤ) - quotient * den| = rest := by
    rw [hnum, mul_comm, add_sub_cancel_left, abs_of_nonneg (Int.natCast_nonneg rest)]
  have hup : |(num : ℤ) - (quotient + 1 : Nat) * den| = den - rest := by
    have hdiff : (num : ℤ) - (quotient + 1 : Nat) * den = rest - den := by
      rw [hnum]
      push_cast
      ring
    rw [hdiff, abs_of_nonpos (by omega)]
    ring
  split_ifs with hbelow habove
  · rw [hdown]
    omega
  · rw [hup]
    omega
  · rcases Nat.mod_two_eq_zero_or_one quotient with heven | hodd
    · rw [heven, Nat.add_zero, hdown]
      omega
    · rw [hodd, hup]
      omega

section Quotient

variable {num den : Nat} (hden : 0 < den)
include hden

/-- A rounded quotient does not pass a whole number. -/
lemma roundDiv_le {n : Nat} (h : num ≤ n * den) : roundDiv num den ≤ n := by
  by_contra! hlt
  have hspec := (roundDiv_spec num hden).1
  have hmul : ((n + 1) * den : ℤ) ≤ roundDiv num den * den := by
    exact_mod_cast Nat.mul_le_mul_right den hlt
  have hneg : (num : ℤ) - roundDiv num den * den ≤ -den := by
    have hq : (num : ℤ) ≤ n * den := by exact_mod_cast h
    linarith
  rw [abs_of_neg (by omega)] at hspec
  omega

lemma le_roundDiv {n : Nat} (h : n * den ≤ num) : n ≤ roundDiv num den := by
  by_contra! hlt
  have hspec := (roundDiv_spec num hden).1
  have hmul : ((roundDiv num den + 1) * den : ℤ) ≤ n * den := by
    exact_mod_cast Nat.mul_le_mul_right den hlt
  have hpos : (den : ℤ) ≤ num - roundDiv num den * den := by
    have hq : (n * den : ℤ) ≤ num := by exact_mod_cast h
    linarith
  rw [abs_of_pos (by omega)] at hspec
  omega

/-- Above an odd number, half way up is rounded up. -/
lemma roundDiv_le_iff_of_odd {n : Nat} (hodd : n % 2 = 1) :
    roundDiv num den ≤ n ↔ 2 * num < (2 * n + 1) * den := by
  obtain ⟨hhalf, heven⟩ := roundDiv_spec num hden
  generalize roundDiv num den = r at hhalf heven ⊢
  constructor
  · intro hle
    by_contra! hfar
    have hmul : (r * den : ℤ) ≤ n * den := by exact_mod_cast Nat.mul_le_mul_right den hle
    have hfar' : ((2 * n + 1) * den : ℤ) ≤ 2 * num := by exact_mod_cast hfar
    have hdist : (den : ℤ) ≤ 2 * (num - r * den) := by linarith
    rw [abs_of_pos (by omega)] at hhalf heven
    have hrn : (r * den : ℤ) = n * den := by linarith
    have hrn' : r = n := Nat.eq_of_mul_eq_mul_right hden (by exact_mod_cast hrn)
    have hreven := heven (by omega)
    omega
  · intro hnear
    by_contra! hlt
    have hmul : ((n + 1) * den : ℤ) ≤ r * den := by exact_mod_cast Nat.mul_le_mul_right den hlt
    have hnear' : (2 * num : ℤ) < (2 * n + 1) * den := by exact_mod_cast hnear
    have hdist : (den : ℤ) < 2 * (r * den - num) := by linarith
    rw [abs_sub_comm, abs_of_pos (by omega)] at hhalf
    omega

/-- No other multiple of the divisor is nearer, and if one is as near then the quotient is even. -/
lemma roundDiv_nearest {n : Nat} (hne : n ≠ roundDiv num den) :
    |(num : ℤ) - roundDiv num den * den| < |(num : ℤ) - n * den| ∨
      |(num : ℤ) - roundDiv num den * den| = |(num : ℤ) - n * den| ∧ roundDiv num den % 2 = 0 := by
  obtain ⟨hhalf, heven⟩ := roundDiv_spec num hden
  generalize roundDiv num den = r at hne hhalf heven ⊢
  have hstep : (den : ℤ) ≤ |(n : ℤ) - r| * den :=
    le_mul_of_one_le_left (Int.natCast_nonneg den) (Int.one_le_abs (by omega))
  have happart : |(n : ℤ) - r| * den ≤ |(num : ℤ) - r * den| + |(num : ℤ) - n * den| := by
    have hsplit : ((n : ℤ) - r) * den = (num - r * den) - (num - n * den) := by ring
    rw [← abs_of_nonneg (Int.natCast_nonneg den), ← abs_mul, abs_of_nonneg (Int.natCast_nonneg den),
      hsplit]
    exact abs_sub _ _
  omega

end Quotient

/-! ## Rounding a quotient -/

/-- The significand of a rounded quotient of units. -/
def roundedSignificand (num den : Nat) : Nat := roundDiv num (den <<< spareBits (num / den))

section Ratio

variable (num : Nat) {den : Nat} (hden : 0 < den)
include hden

lemma shiftLeft_pos (shift : Nat) : 0 < den <<< shift := by
  rw [Nat.shiftLeft_eq]
  exact Nat.mul_pos hden (Nat.two_pow_pos shift)

/-- The spare bits of a quotient are those for which it needs all 53 bits. -/
lemma spareBits_div :
    num < 2 ^ 53 * (den <<< spareBits (num / den)) ∧
      (spareBits (num / den) = 0 ∨ 2 ^ 52 * (den <<< spareBits (num / den)) ≤ num) := by
  obtain ⟨hhigh, hlow⟩ := spareBits_spec (num / den)
  generalize spareBits (num / den) = shift at hhigh hlow ⊢
  rw [Nat.div_lt_iff_lt_mul hden] at hhigh
  rw [Nat.le_div_iff_mul_le hden] at hlow
  rw [Nat.shiftLeft_eq, Nat.mul_comm den, ← Nat.mul_assoc, ← Nat.mul_assoc]
  exact ⟨hhigh, hlow⟩

lemma roundedSignificand_le : roundedSignificand num den ≤ 2 ^ 53 :=
  roundDiv_le (shiftLeft_pos hden _) (spareBits_div num hden).1.le

lemma le_roundedSignificand :
    spareBits (num / den) = 0 ∨ 2 ^ 52 ≤ roundedSignificand num den :=
  (spareBits_div num hden).2.imp_right (le_roundDiv (shiftLeft_pos hden _))

/-- The quotients below the limit are those that are rounded to the bits of a finite double.
Only with the most spare bits does it matter how the significand is rounded. -/
lemma roundedBits_lt_iff :
    spareBits (num / den) * 2 ^ 52 + roundedSignificand num den < 2047 * 2 ^ 52 ↔
      num < overflowUnits * den := by
  obtain ⟨hhigh, hlow⟩ := spareBits_div num hden
  have hle := roundedSignificand_le num hden
  have hlead := le_roundedSignificand num hden
  -- the largest significand is odd, so half a step above it is rounded up
  obtain ⟨n, hn⟩ : ∃ n, n + 1 = 2 ^ 53 := ⟨2 ^ 53 - 1, by norm_num⟩
  have hround : roundedSignificand num den ≤ n ↔
      2 * num < (2 * n + 1) * (den <<< spareBits (num / den)) :=
    roundDiv_le_iff_of_odd (shiftLeft_pos hden _) (by omega)
  obtain ⟨s, hs⟩ : ∃ s, s = 2044 := ⟨_, rfl⟩
  have hlimit : 2 ^ 54 - 1 = 2 * n + 1 := by omega
  rw [overflowUnits_eq hs, hlimit]
  generalize roundedSignificand num den = q at hle hlead hround ⊢
  generalize spareBits (num / den) = shift at hhigh hlow hlead hround ⊢
  rw [Nat.shiftLeft_eq] at hhigh hlow hround
  rcases lt_trichotomy shift (s + 1) with hshift | rfl | hshift
  · refine iff_of_true (by omega) ?_
    calc num < 2 ^ 53 * (den * 2 ^ shift) := hhigh
      _ ≤ (2 * n + 1) * (den * 2 ^ s) :=
        Nat.mul_le_mul (by omega)
          (Nat.mul_le_mul_left den (Nat.pow_le_pow_right Nat.two_pos (by omega)))
      _ = (2 * n + 1) * 2 ^ s * den := by ring
  · have hdouble : (2 * n + 1) * (den * 2 ^ (s + 1)) = 2 * ((2 * n + 1) * 2 ^ s * den) := by ring
    rw [hdouble] at hround
    omega
  · refine iff_of_false (by omega) (Nat.not_lt.mpr ?_)
    calc (2 * n + 1) * 2 ^ s * den ≤ 2 ^ 54 * 2 ^ s * den :=
          Nat.mul_le_mul_right den (Nat.mul_le_mul_right _ (by omega))
      _ = 2 ^ 52 * (den * 2 ^ (s + 2)) := by ring
      _ ≤ 2 ^ 52 * (den * 2 ^ shift) :=
        Nat.mul_le_mul_left _
          (Nat.mul_le_mul_left den (Nat.pow_le_pow_right Nat.two_pos (by omega)))
      _ ≤ num := hlow.resolve_left (by omega)

/-- **A quotient below the limit is read as its significand, shifted back to its place.** -/
theorem read_ofRatio (negative : Bool) (h : num < overflowUnits * den) :
    read (ofRatio negative num den) =
      .finite negative (roundedSignificand num den * 2 ^ spareBits (num / den)) := by
  have hfinite := (roundedBits_lt_iff num hden).mpr h
  have hbits : magnitudeBits num den =
      spareBits (num / den) * 2 ^ 52 + roundedSignificand num den := by
    simp only [magnitudeBits, Nat.shiftLeft_eq _ 52]
    exact Nat.min_eq_left hfinite.le
  rw [ofRatio, hbits]
  exact read_ofBits_shifted negative (roundedSignificand_le num hden)
    (le_roundedSignificand num hden) hfinite

/-- Any other quotient is rounded to infinity. -/
theorem read_ofRatio_of_overflow (negative : Bool) (h : overflowUnits * den ≤ num) :
    read (ofRatio negative num den) = .infinite negative := by
  have hinfinite := mt (roundedBits_lt_iff num hden).mp h.not_gt
  have hbits : magnitudeBits num den = 2047 * 2 ^ 52 := by
    simp only [magnitudeBits, Nat.shiftLeft_eq _ 52]
    exact Nat.min_eq_right (Nat.le_of_not_lt hinfinite)
  rw [ofRatio, hbits]
  cases negative <;> rfl

/-- The distance of a quotient from a whole number. -/
lemma abs_ratio_sub (w : Nat) :
    |(num : ℚ) / den - w| = ((|(num : ℤ) - w * den| : ℤ) : ℚ) / den := by
  have hpos : (0 : ℚ) < den := by exact_mod_cast hden
  rw [div_sub' hpos.ne', abs_div, abs_of_pos hpos]
  push_cast
  rw [mul_comm]

/-- An even significand is even also after a carry. -/
lemma significand_rounded (heven : roundedSignificand num den % 2 = 0) :
    significand (roundedSignificand num den * 2 ^ spareBits (num / den)) % 2 = 0 := by
  rcases (roundedSignificand_le num hden).lt_or_eq with hlt | hcarry
  · rw [significand_mul hlt (le_roundedSignificand num hden)]
    exact heven
  · have hpower : roundedSignificand num den * 2 ^ spareBits (num / den) =
        2 ^ 52 * 2 ^ (spareBits (num / den) + 1) := by
      rw [hcarry]
      ring
    rw [hpower, significand_mul (by norm_num) (Or.inr le_rfl)]
    norm_num

/-- On the grid of its shift, the significand is the nearest one. -/
lemma roundedSignificand_nearest {n : Nat} (hne : n ≠ roundedSignificand num den) :
    |(num : ℤ) - roundedSignificand num den * (den * 2 ^ spareBits (num / den) : Nat)| <
        |(num : ℤ) - n * (den * 2 ^ spareBits (num / den) : Nat)| ∨
      |(num : ℤ) - roundedSignificand num den * (den * 2 ^ spareBits (num / den) : Nat)| =
          |(num : ℤ) - n * (den * 2 ^ spareBits (num / den) : Nat)| ∧
        roundedSignificand num den % 2 = 0 := by
  rw [← Nat.shiftLeft_eq]
  exact roundDiv_nearest (shiftLeft_pos hden _) hne

/-- The rounded quotient is the nearest magnitude. -/
lemma nearest_rounded (h : num < overflowUnits * den) :
    Nearest ((num : ℚ) / den) (roundedSignificand num den * 2 ^ spareBits (num / den)) := by
  have hpos : (0 : ℚ) < den := by exact_mod_cast hden
  have hlow := (spareBits_div num hden).2
  have heven := significand_rounded num hden
  have hnear := fun n => roundedSignificand_nearest num hden (n := n)
  refine ⟨?_, isMagnitude_of_read (read_ofRatio num hden false h), fun w hw hne => ?_⟩
  · rw [div_lt_iff₀ hpos]
    exact_mod_cast h
  rw [abs_ratio_sub num hden, abs_ratio_sub num hden, div_lt_div_iff_of_pos_right hpos,
    div_left_inj' hpos.ne', Int.cast_lt, Int.cast_inj]
  generalize roundedSignificand num den = q at hne heven hnear ⊢
  generalize spareBits (num / den) = shift at hne heven hlow hnear ⊢
  rw [Nat.shiftLeft_eq] at hlow
  have hscale : ∀ n : Nat, ((n * 2 ^ shift : Nat) : ℤ) * den = n * (den * 2 ^ shift : Nat) := by
    intro n
    push_cast
    ring
  rw [hscale]
  obtain ⟨m, k, hm, -, rfl⟩ := hw
  rcases le_or_gt shift k with hk | hk
  · obtain ⟨n, hn⟩ : ∃ n, m * 2 ^ k = n * 2 ^ shift :=
      exists_eq_mul_left_of_dvd (Dvd.dvd.mul_left (Nat.pow_dvd_pow 2 hk) m)
    rw [hn] at hne ⊢
    rw [hscale]
    exact (hnear n fun heq => hne (by rw [heq])).imp_right fun htie => ⟨htie.1, heven htie.2⟩
  · -- a magnitude with fewer spare bits lies below the power of two, which is not nearer either
    have hbelow : m * 2 ^ k * den < 2 ^ 52 * (den * 2 ^ shift) := by
      calc m * 2 ^ k * den < 2 ^ 53 * 2 ^ k * den :=
            Nat.mul_lt_mul_of_pos_right (Nat.mul_lt_mul_of_pos_right hm (Nat.two_pow_pos k)) hden
        _ = 2 ^ 52 * (den * 2 ^ (k + 1)) := by ring
        _ ≤ 2 ^ 52 * (den * 2 ^ shift) :=
          Nat.mul_le_mul_left _ (Nat.mul_le_mul_left den (Nat.pow_le_pow_right Nat.two_pos hk))
    have hpower : 2 ^ 52 * (den * 2 ^ shift) ≤ num := hlow.resolve_left (by omega)
    have hle : |(num : ℤ) - q * (den * 2 ^ shift : Nat)| ≤
        |(num : ℤ) - (2 ^ 52 : Nat) * (den * 2 ^ shift : Nat)| := by
      rcases eq_or_ne (2 ^ 52) q with rfl | hq
      · exact le_rfl
      · exact (hnear _ hq).elim le_of_lt fun htie => htie.1.le
    refine Or.inl (hle.trans_lt ?_)
    rw [← Nat.cast_mul, ← Nat.cast_mul, abs_of_nonneg (by omega), abs_of_nonneg (by omega)]
    omega

/-- **Results are rounded to nearest, ties to even.** -/
theorem roundsTo_ofRatio (negative : Bool) (h : (num : ℚ) / den / 2 ^ places < overflowBound) :
    RoundsTo (withSign negative (num / den / 2 ^ places)) (ofRatio negative num den) := by
  have hpos : (0 : ℚ) < den := by exact_mod_cast hden
  have hlimit : num < overflowUnits * den := by
    rw [lt_overflowUnits_iff, div_lt_iff₀ hpos] at h
    exact_mod_cast h
  exact (roundsTo_iff (read_ofRatio num hden negative hlimit)
    (div_nonneg (Nat.cast_nonneg num) hpos.le)).mpr (nearest_rounded num hden hlimit)

end Ratio

end Aquarium.Number
