import Aquarium.Arithmetic
import Aquarium.Proofs.Number.Exact

/-!
# Comparing doubles

Doubles are compared as numbers: of two finite doubles the smaller one has the smaller value
(`less_eq_decide`).  Rounding never makes a number vanish, however large or small it is, so a
number of units is rounded to zero only if it is zero (`isZero_ofUnits_iff`).
-/

namespace Aquarium.Number

/-- Finite doubles are ordered as their values. -/
lemma less_eq_decide {x y : Float} {a b : ℚ} (hx : value? x = some a) (hy : value? y = some b) :
    less x y = decide (a < b) := by
  unfold value? at hx hy
  unfold less
  cases hrx : read x with
  | finite s units =>
      cases hry : read y with
      | finite t units' =>
          simp only [hrx, hry, Option.some.injEq] at hx hy
          subst hx hy
          have hpos : (0 : ℚ) < 2 ^ places := by
            generalize places = p
            positivity
          simp only [div_lt_div_iff_of_pos_right hpos, Int.cast_lt]
      | infinite _ | undefined => simp [hry] at hy
  | infinite _ | undefined => simp [hrx] at hx

/-! ## Rounding to zero -/

lemma magnitudeBits_pos {units : Nat} (h : 0 < units) : 0 < magnitudeBits units 1 := by
  simp only [magnitudeBits, Nat.div_one]
  rcases Nat.eq_zero_or_pos (spareBits units) with hspare | hspare
  · have hround := roundDiv_mul units Nat.one_pos
    rw [Nat.mul_one] at hround
    simp only [hspare, Nat.shiftLeft_eq, hround]
    omega
  · simp only [Nat.shiftLeft_eq]
    omega

/-- What is not zero is not rounded to zero.  The largest magnitudes are rounded to infinity, and
all others to a finite number with a bit set. -/
lemma isZero_ofUnits_iff {negative : Bool} {units : Nat} :
    isZero (ofUnits negative units) = true ↔ units = 0 := by
  rcases Nat.eq_zero_or_pos units with rfl | hpos
  · cases negative <;> decide
  · refine iff_of_false ?_ hpos.ne'
    have hbits := magnitudeBits_pos hpos
    have hmax : magnitudeBits units 1 ≤ 2047 * 2 ^ 52 := Nat.min_le_right _ _
    rw [ofUnits, ofRatio]
    generalize magnitudeBits units 1 = bits at hbits hmax
    by_cases hinfinite : bits = 2047 * 2 ^ 52
    · rw [hinfinite]
      cases negative <;> decide
    · have hword : (if negative then 1 <<< 63 else 0) + bits =
          word negative (bits / 2 ^ 52) (bits % 2 ^ 52) := by
        rw [word, Nat.shiftLeft_eq, Nat.one_mul, Nat.div_add_mod']
      rw [hword, isZero,
        read_ofBits_word negative (by omega) (Nat.mod_lt bits (Nat.two_pow_pos 52))]
      simp only [beq_iff_eq]
      split_ifs
      · omega
      · rw [Nat.shiftLeft_eq, Nat.shiftLeft_eq]
        positivity

lemma isZero_ofNat_iff {n : Nat} : isZero (ofNat n) = true ↔ n = 0 := by
  rw [ofNat, isZero_ofUnits_iff, Nat.shiftLeft_eq]
  generalize places = p
  simp

end Aquarium.Number

namespace Aquarium.Operator

/-- As a number, false is zero and true is not. -/
lemma isZero_truth (b : Bool) : Number.isZero (truth b) = !b := by
  cases b with
  | false => exact Number.isZero_ofNat_iff.mpr rfl
  | true => exact Bool.eq_false_iff.mpr (mt Number.isZero_ofNat_iff.mp one_ne_zero)

end Aquarium.Operator
