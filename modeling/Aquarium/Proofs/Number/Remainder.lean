import Aquarium.Arithmetic
import Aquarium.Proofs.Number.Rounding

/-!
# Remainders of doubles

The truncated remainder of two doubles is exact (`value?_remainder`), since it needs no more bits
than one of them.  The modulo adds the divisor to it and takes the remainder again.  The sum in
between is rounded, and it may be too large.

* A sum that is finite lies on the side of the divisor, so the second remainder is a fraction of the
  divisor (`exists_value?_modulo`) and has its sign.
* For integers the sum is exact, and the modulo is the floored one.
* A sum that is too large is infinite and leaves no remainder.
-/

namespace Aquarium.Number

/-! ## Sums -/

/-- The double of a signed number of units is the rounded number. -/
lemma roundsTo_ofSigned (zeroNegative : Bool) {n : ℤ} (h : |(n : ℚ) / 2 ^ places| < overflowBound) :
    RoundsTo (n / 2 ^ places) (ofSigned zeroNegative n) := by
  unfold ofSigned
  split_ifs with hzero
  · subst hzero
    have hread := isMagnitude_zero.read_ofUnits zeroNegative
    have hvalue := roundsTo_self (value?_of_read hread)
    cases zeroNegative <;> simpa [withSign] using hvalue
  · have hsign : withSign (decide (n < 0)) ((n.natAbs : ℚ) / (1 : Nat) / 2 ^ places) =
        n / 2 ^ places := by
      have hself := withSign_abs_self (n : ℚ)
      simp only [Int.cast_lt_zero] at hself
      rw [Nat.cast_one, div_one, withSign_div, Nat.cast_natAbs, Int.cast_abs, hself]
    rw [← hsign, withSign_abs] at h
    rw [← hsign]
    exact roundsTo_ofRatio _ Nat.one_pos _ ((le_abs_self _).trans_lt h)

lemma read_ofSigned_of_overflow (zeroNegative : Bool) {n : ℤ}
    (h : overflowBound ≤ |(n : ℚ) / 2 ^ places|) :
    read (ofSigned zeroNegative n) = .infinite (decide (n < 0)) := by
  have hlarge : overflowUnits ≤ n.natAbs := by
    rw [abs_div, abs_of_pos one_pos_units, ← not_lt, lt_overflowUnits_iff, not_lt, ← Int.cast_abs,
      Int.abs_eq_natAbs] at h
    exact_mod_cast h
  have hpos : n ≠ 0 := by
    rintro rfl
    rw [Int.natAbs_zero, overflowUnits_eq rfl] at hlarge
    generalize 2044 = s at hlarge
    have hpow := Nat.two_pow_pos s
    omega
  rw [ofSigned, if_neg hpos, ofUnits]
  exact read_ofRatio_of_overflow _ Nat.one_pos _ (by rwa [Nat.mul_one])

/-- The sum of two finite doubles, in units. -/
lemma exists_add_eq_ofSigned {v w : Float} {a b : ℚ} (hv : value? v = some a)
    (hw : value? w = some b) :
    ∃ (sign : Bool) (n : ℤ), add v w = ofSigned sign n ∧ a + b = n / 2 ^ places := by
  unfold value? at hv hw
  cases hrv : read v with
  | finite s k =>
      cases hrw : read w with
      | finite t l =>
          simp only [hrv, hrw, Option.some.injEq] at hv hw
          refine ⟨s && t, signed s k + signed t l, by simp only [add, hrv, hrw], ?_⟩
          rw [← hv, ← hw, Int.cast_add, add_div]
      | infinite | undefined => simp [hrw] at hw
  | infinite | undefined => simp [hrv] at hv

/-- A sum is the rounded exact sum. -/
lemma roundsTo_add {v w : Float} {a b : ℚ} (hv : value? v = some a) (hw : value? w = some b)
    (h : |a + b| < overflowBound) : RoundsTo (a + b) (add v w) := by
  obtain ⟨sign, n, hadd, hsum⟩ := exists_add_eq_ofSigned hv hw
  rw [hsum] at h ⊢
  rw [hadd]
  exact roundsTo_ofSigned sign h

lemma read_add_of_overflow {v w : Float} {a b : ℚ} (hv : value? v = some a) (hw : value? w = some b)
    (h : overflowBound ≤ |a + b|) : ∃ negative, read (add v w) = .infinite negative := by
  obtain ⟨sign, n, hadd, hsum⟩ := exists_add_eq_ofSigned hv hw
  rw [hsum] at h
  rw [hadd]
  exact ⟨_, read_ofSigned_of_overflow sign h⟩

/-! ## The truncated remainder -/

/-- A number without its fraction. -/
def truncate (q : ℚ) : ℤ := if q < 0 then ⌈q⌉ else ⌊q⌋

/-- The remainder of the division that truncates towards zero. -/
def truncatedRemainder (y x : ℚ) : ℚ := y - x * truncate (y / x)

lemma truncate_neg (q : ℚ) : truncate (-q) = -truncate q := by
  unfold truncate
  rcases lt_trichotomy q 0 with h | rfl | h
  · rw [if_neg (by linarith), if_pos h, Int.floor_neg]
  · simp
  · rw [if_pos (by linarith), if_neg h.not_gt, Int.ceil_neg]

lemma truncate_of_nonneg {q : ℚ} (h : 0 ≤ q) : truncate q = ⌊q⌋ := if_neg h.not_gt

/-- The remainder has the sign of the dividend, and the sign of the divisor does not matter. -/
lemma truncatedRemainder_withSign (s t : Bool) (y x : ℚ) :
    truncatedRemainder (withSign s y) (withSign t x) = withSign s (truncatedRemainder y x) := by
  cases s <;> cases t <;>
    simp only [truncatedRemainder, withSign, if_true, Bool.false_eq_true, if_false, neg_div,
      div_neg, neg_neg, truncate_neg, Int.cast_neg] <;>
    ring

/-- Counted in the same unit, the remainder is that of the natural numbers. -/
lemma truncatedRemainder_natCast {one : ℚ} (hone : one ≠ 0) (k : Nat) {l : Nat} (hl : l ≠ 0) :
    truncatedRemainder (k / one) (l / one) = (k % l : Nat) / one := by
  have hquotient : (0 : ℚ) ≤ (k : ℚ) / l := by positivity
  have hfloor : ((⌊(k : ℚ) / l⌋ : ℤ) : ℚ) = (k / l : Nat) := by
    rw [← Int.natCast_floor_eq_floor hquotient, Nat.floor_div_eq_div, Int.cast_natCast]
  have hdiv : (k : ℚ) = l * (k / l : Nat) + (k % l : Nat) := by
    exact_mod_cast (Nat.div_add_mod k l).symm
  rw [truncatedRemainder, div_div_div_cancel_right₀ hone, truncate_of_nonneg hquotient, hfloor,
    div_mul_eq_mul_div, ← sub_div, div_left_inj' hone]
  linarith

/-- A remainder needs no more bits than one of its operands. -/
lemma IsMagnitude.mod {k l : Nat} (hk : IsMagnitude k) (hl : IsMagnitude l) :
    IsMagnitude (k % l) := by
  obtain ⟨q, a, hq, ha, rfl⟩ := hk
  obtain ⟨m, b, hm, hb, rfl⟩ := hl
  rcases le_total a b with hab | hba
  · obtain ⟨c, rfl⟩ := Nat.exists_eq_add_of_le' hab
    refine ⟨q % (m * 2 ^ c), a, (Nat.mod_le _ _).trans_lt hq, ha, ?_⟩
    rw [Nat.pow_add, ← Nat.mul_assoc, Nat.mul_mod_mul_right]
  · obtain ⟨c, rfl⟩ := Nat.exists_eq_add_of_le' hba
    rcases Nat.eq_zero_or_pos m with rfl | hpos
    · rw [Nat.zero_mul, Nat.mod_zero]
      exact ⟨q, c + b, hq, ha, rfl⟩
    · refine ⟨q * 2 ^ c % m, b, (Nat.mod_lt _ hpos).trans hm, hb, ?_⟩
      rw [Nat.pow_add, ← Nat.mul_assoc, Nat.mul_mod_mul_right]

/-- **The remainder of two doubles is exact.** -/
theorem value?_remainder {v w : Float} {y x : ℚ} (hv : value? v = some y) (hw : value? w = some x)
    (hx : x ≠ 0) : value? (remainder v w) = some (truncatedRemainder y x) := by
  obtain ⟨s, k, hread, rfl⟩ := exists_read_of_value? hv
  obtain ⟨t, l, hread', rfl⟩ := exists_read_of_value? hw
  have hl : l ≠ 0 := by
    rintro rfl
    exact hx (by simp [withSign])
  have hmod := (isMagnitude_of_read hread).mod (isMagnitude_of_read hread')
  simp only [remainder, hread, hread', if_neg hl]
  rw [value?_of_read (hmod.read_ofUnits s), truncatedRemainder_withSign,
    truncatedRemainder_natCast one_pos_units.ne' k hl]

/-- A remainder is smaller than the divisor. -/
lemma abs_truncatedRemainder_lt (y : ℚ) {x : ℚ} (hx : x ≠ 0) :
    |truncatedRemainder y x| < |x| := by
  have hfactor : truncatedRemainder y x = (y / x - truncate (y / x)) * x := by
    rw [truncatedRemainder]
    field_simp
  have hcut : |y / x - truncate (y / x)| < 1 := by
    unfold truncate
    split_ifs
    · have h := Int.le_ceil (y / x)
      have h' := Int.ceil_lt_add_one (y / x)
      rw [abs_lt]
      constructor <;> linarith
    · rw [Int.self_sub_floor, Int.abs_fract]
      exact Int.fract_lt_one _
  rw [hfactor, abs_mul]
  exact mul_lt_of_lt_one_left (abs_pos.mpr hx) hcut

/-- On the side of the divisor, the remainder is a fraction of the divisor. -/
lemma truncatedRemainder_of_nonneg {y x : ℚ} (hx : x ≠ 0) (h : 0 ≤ y / x) :
    truncatedRemainder y x = x * Int.fract (y / x) := by
  rw [truncatedRemainder, truncate_of_nonneg h, Int.fract, mul_sub, mul_div_cancel₀ _ hx]

/-- A number below the divisor is its own remainder. -/
lemma truncatedRemainder_of_lt {y x : ℚ} (hy : 0 ≤ y) (hlt : y < x) :
    truncatedRemainder y x = y := by
  have hx : 0 < x := hy.trans_lt hlt
  have hfract : Int.fract (y / x) = y / x :=
    Int.fract_eq_self.mpr ⟨div_nonneg hy hx.le, (div_lt_one hx).mpr hlt⟩
  rw [truncatedRemainder_of_nonneg hx.ne' (div_nonneg hy hx.le), hfract, mul_div_cancel₀ _ hx.ne']

/-! ## The modulo -/

/-- A number is rounded to a double on its side of zero. -/
lemma RoundsTo.same_side {q a : ℚ} {v : Float} (h : RoundsTo q v) (hv : value? v = some a) :
    0 ≤ a * q := by
  obtain ⟨u, -, hvalue⟩ := h.exists_nearest
  have hunits : (0 : ℚ) ≤ u / 2 ^ places := div_nonneg (Nat.cast_nonneg u) one_pos_units.le
  rw [hv, Option.some.injEq] at hvalue
  rw [hvalue, withSign]
  rcases lt_or_ge q 0 with hneg | hpos
  · simp only [hneg, decide_true, if_true]
    exact mul_nonneg_of_nonpos_of_nonpos (neg_nonpos.mpr hunits) hneg.le
  · simp only [hpos.not_gt, decide_false, Bool.false_eq_true, if_false]
    exact mul_nonneg hunits hpos

/-- The truncated remainder does not take the divisor to the other side of zero. -/
lemma truncatedRemainder_add_side (y : ℚ) {x : ℚ} (hx : x ≠ 0) :
    0 < x ∧ 0 < truncatedRemainder y x + x ∨ x < 0 ∧ truncatedRemainder y x + x < 0 := by
  have hlt := abs_truncatedRemainder_lt y hx
  rcases lt_or_gt_of_ne hx with hneg | hpos
  · rw [abs_of_neg hneg, abs_lt] at hlt
    exact Or.inr ⟨hneg, by linarith⟩
  · rw [abs_of_pos hpos, abs_lt] at hlt
    exact Or.inl ⟨hpos, by linarith⟩

/-- If the sum in between is not too large, the modulo is a fraction of the divisor: that of the
rounded sum. -/
lemma exists_value?_modulo {v w : Float} {y x : ℚ} (hv : value? v = some y) (hw : value? w = some x)
    (hx : x ≠ 0) (h : |truncatedRemainder y x + x| < overflowBound) :
    ∃ sum a, RoundsTo (truncatedRemainder y x + x) sum ∧ value? sum = some a ∧
      value? (modulo v w) = some (x * Int.fract (a / x)) := by
  have hsum := roundsTo_add (value?_remainder hv hw hx) hw h
  obtain ⟨-, a, ha, -⟩ := id hsum
  refine ⟨_, a, hsum, ha, ?_⟩
  -- the rounded sum lies on the same side as the exact one, and that on the side of the divisor
  have hside := hsum.same_side ha
  have hquotient : 0 ≤ a / x := by
    rcases truncatedRemainder_add_side y hx with ⟨hpos, hsum⟩ | ⟨hneg, hsum⟩
    · exact div_nonneg (nonneg_of_mul_nonneg_left hside hsum) hpos.le
    · exact div_nonneg_of_nonpos (nonpos_of_mul_nonneg_left hside hsum) hneg.le
  rw [modulo, value?_remainder ha hw hx, truncatedRemainder_of_nonneg hx hquotient]

/-- A sum that is too large leaves no remainder. -/
lemma read_modulo_of_overflow {v w : Float} {y x : ℚ} (hv : value? v = some y)
    (hw : value? w = some x) (hx : x ≠ 0) (h : overflowBound ≤ |truncatedRemainder y x + x|) :
    read (modulo v w) = .undefined := by
  obtain ⟨negative, hsum⟩ := read_add_of_overflow (value?_remainder hv hw hx) hw h
  have hundefined : read undefined = .undefined := rfl
  obtain ⟨t, l, hread, -⟩ := exists_read_of_value? hw
  rw [modulo, remainder, hsum, hread]
  exact hundefined

end Aquarium.Number

namespace Aquarium.Operator

open Number

variable {v w : Float}

/-- The modulo has a result for every divisor but zero. -/
lemma eval_mod (v : Float) {x : ℚ} (hw : value? w = some x) (hx : x ≠ 0) :
    eval .mod v w = .ok (modulo v w) := by
  have hzero : isZero w = false := by
    rw [Bool.eq_false_iff, Ne, isZero_iff, hw, Option.some.injEq]
    exact hx
  simp only [eval, hzero, Bool.false_eq_true, if_false]

/-- **On integers the modulo is the floored one.**  Integers of at most 53 bits are doubles, and
for two of at most `2 ^ 52` in magnitude the sum in between is exact.  So whichever doubles have
the values `y` and `x`, their modulo is `y - x * ⌊y / x⌋`. -/
theorem modulo_of_integers_is_floored {y x : ℤ} (hy : |y| ≤ 2 ^ 52) (hx : |x| ≤ 2 ^ 52)
    (hx0 : x ≠ 0) :
    value? (ofInt y) = some (y : ℚ) ∧ value? (ofInt x) = some (x : ℚ) ∧
      ∀ v w, value? v = some (y : ℚ) → value? w = some (x : ℚ) →
        ∃ r, eval .mod v w = .ok r ∧ value? r = some ((y - x * ⌊(y : ℚ) / x⌋ : ℤ) : ℚ) := by
  have hxq : (x : ℚ) ≠ 0 := by exact_mod_cast hx0
  have hdouble : ∀ n : ℤ, |n| < 2 ^ 53 → value? (ofInt n) = some (n : ℚ) := by
    intro n hn
    rw [Int.abs_eq_natAbs] at hn
    exact value?_ofInt (by omega)
  refine ⟨hdouble y (by omega), hdouble x (by omega), fun v w hv hw => ?_⟩
  refine ⟨modulo v w, eval_mod v hw hxq, ?_⟩
  -- the sum in between is an integer, and it is small enough to be a double
  obtain ⟨n, hn⟩ : ∃ n : ℤ, n = y - x * truncate ((y : ℚ) / x) + x := ⟨_, rfl⟩
  have hsum : truncatedRemainder (y : ℚ) x + x = n := by
    rw [hn, truncatedRemainder]
    push_cast
    ring
  have hbound : |n| < 2 ^ 53 := by
    have hlt := abs_truncatedRemainder_lt (y : ℚ) hxq
    have hadd := abs_add_le (truncatedRemainder (y : ℚ) x) x
    rw [hsum] at hadd
    have hnq : |(n : ℚ)| < 2 * |(x : ℚ)| := by linarith
    have hni : |n| < 2 * |x| := by exact_mod_cast hnq
    omega
  have hself := roundsTo_self (hdouble n hbound)
  obtain ⟨sum, a, hround, ha, hvalue⟩ := exists_value?_modulo hv hw hxq (hsum ▸ hself.1)
  have hexact : a = n := by
    have hsame := (hsum ▸ hround).unique hself
    rwa [ha, hdouble n hbound, Option.some.injEq] at hsame
  have hfract : (n : ℚ) / x = y / x + ((1 - truncate ((y : ℚ) / x) : ℤ) : ℚ) := by
    rw [hn]
    push_cast
    field_simp
    ring
  rw [hvalue, hexact, hfract, Int.fract_add_intCast, Int.fract]
  push_cast
  rw [mul_sub, mul_div_cancel₀ _ hxq]

/-- The largest operands for which the sum in between is exact, of different signs. -/
theorem modulo_of_integers_is_floored_at_limit :
    |(-2 ^ 52 : ℤ)| ≤ 2 ^ 52 ∧ |(2 ^ 52 - 1 : ℤ)| ≤ 2 ^ 52 ∧ (2 ^ 52 - 1 : ℤ) ≠ 0 ∧
      ∃ r, eval .mod (ofInt (-2 ^ 52)) (ofInt (2 ^ 52 - 1)) = .ok r ∧
        value? r = some (2 ^ 52 - 2) := by
  have hfloor : ⌊((-2 ^ 52 : ℤ) : ℚ) / (2 ^ 52 - 1 : ℤ)⌋ = -2 := by
    rw [Int.floor_eq_iff]
    norm_num
  obtain ⟨hv, hw, hmod⟩ :=
    modulo_of_integers_is_floored (y := -2 ^ 52) (x := 2 ^ 52 - 1) (by norm_num) (by norm_num)
      (by norm_num)
  obtain ⟨r, hr, hvalue⟩ := hmod _ _ hv hw
  rw [hfloor] at hvalue
  refine ⟨by norm_num, by norm_num, by norm_num, r, hr, hvalue.trans ?_⟩
  norm_num

/-- **The modulo takes the sign of the divisor, unless the sum in between is too large.**  For
finite operands and a divisor that is not zero there is a result.  If the truncated remainder and
the divisor have a sum that can be rounded, the result is a number, it is zero or has the sign of
the divisor, and it is smaller than the divisor.  If the sum is too large, the result is no number
at all. -/
theorem modulo_takes_sign_of_divisor {y x : ℚ} (hv : value? v = some y) (hw : value? w = some x)
    (hx : x ≠ 0) :
    ∃ r, eval .mod v w = .ok r ∧
      (|truncatedRemainder y x + x| < overflowBound →
        ∃ a, value? r = some a ∧ (a = 0 ∨ SignType.sign a = SignType.sign x) ∧ |a| < |x|) ∧
      (overflowBound ≤ |truncatedRemainder y x + x| → read r = .undefined) := by
  refine ⟨modulo v w, eval_mod v hw hx, fun hfinite => ?_, read_modulo_of_overflow hv hw hx⟩
  obtain ⟨-, a, -, -, hvalue⟩ := exists_value?_modulo hv hw hx hfinite
  have hnonneg := Int.fract_nonneg (a / x)
  refine ⟨_, hvalue, ?_, ?_⟩
  · rcases hnonneg.eq_or_lt with hzero | hpos
    · exact Or.inl (by rw [← hzero, mul_zero])
    · exact Or.inr (by rw [sign_mul, sign_pos hpos, mul_one])
  · rw [abs_mul, abs_of_nonneg hnonneg]
    exact mul_lt_of_lt_one_right (abs_pos.mpr hx) (Int.fract_lt_one _)

/-- The smallest double below zero, modulo one.  The exact result would be just below one and is no
double; the sum in between is rounded up to one, and zero remains. -/
theorem modulo_takes_sign_of_divisor_tiny :
    value? (Float.ofBits 0x8000000000000001) = some (-(1 / 2 ^ places)) ∧
      value? (ofInt 1) = some 1 ∧
      ∃ r a, eval .mod (Float.ofBits 0x8000000000000001) (ofInt 1) = .ok r ∧ value? r = some a ∧
        (a = 0 ∨ SignType.sign a = SignType.sign 1) ∧ |a| < |1| := by
  have hread : read (Float.ofBits 0x8000000000000001) = .finite true 1 :=
    @read_ofBits_word true 0 1 (by norm_num) (by norm_num)
  have hv : value? (Float.ofBits 0x8000000000000001) = some (-(1 / 2 ^ places)) := by
    rw [value?_of_read hread, Nat.cast_one, withSign, if_pos rfl]
  have hw : value? (ofInt 1) = some 1 := by
    rw [value?_ofInt (by decide), Int.cast_one]
  have hpos : (0 : ℚ) < 1 / 2 ^ places := div_pos one_pos one_pos_units
  have hlt : (1 / 2 ^ places : ℚ) < 1 := by
    rw [div_lt_one one_pos_units]
    exact one_lt_pow₀ one_lt_two (by decide)
  have hsmall : |truncatedRemainder (-(1 / 2 ^ places)) 1 + 1| < overflowBound := by
    have hfloor : ⌊(1 / 2 ^ places : ℚ)⌋ = 0 := Int.floor_eq_zero_iff.mpr ⟨hpos.le, hlt⟩
    have hone : (1 : ℚ) < overflowBound := by simpa using (roundsTo_self hw).1
    rw [truncatedRemainder, div_one, truncate_neg, truncate_of_nonneg hpos.le, hfloor,
      abs_of_pos] <;> push_cast <;> linarith
  obtain ⟨r, hr, hlaw, -⟩ := modulo_takes_sign_of_divisor hv hw one_ne_zero
  obtain ⟨a, ha⟩ := hlaw hsmall
  exact ⟨hv, hw, r, a, hr, ha⟩

/-- Two finite operands and no result: the sum of the largest double and the largest power of two
is infinite. -/
theorem modulo_of_large_operands_is_undefined :
    (∃ y x, value? (Float.ofBits 0x7FE0000000000000) = some y ∧
      value? (Float.ofBits 0x7FEFFFFFFFFFFFFF) = some x ∧ x ≠ 0) ∧
    ¬ ∃ r a, eval .mod (Float.ofBits 0x7FE0000000000000) (Float.ofBits 0x7FEFFFFFFFFFFFFF) = .ok r ∧
      value? r = some a := by
  obtain ⟨s, hs⟩ : ∃ s, s = 2044 := ⟨_, rfl⟩
  -- both operands have the largest exponent of a finite double
  have hread : ∀ m < 2 ^ 52, read (Float.ofBits (UInt64.ofNat (word false (s + 2) m))) =
      .finite false ((2 ^ 52 + m) * (2 ^ s * 2)) := by
    intro m hm
    rw [read_ofBits_word false (by omega) hm, if_neg (by omega), Nat.shiftLeft_eq,
      Nat.one_shiftLeft, ← pow_succ 2 s]
    rfl
  have hv := hread 0 (by norm_num)
  have hw := hread (2 ^ 52 - 1) (by norm_num)
  rw [show UInt64.ofNat (word false (s + 2) 0) = 0x7FE0000000000000 by rw [hs]; decide] at hv
  rw [show UInt64.ofNat (word false (s + 2) (2 ^ 52 - 1)) = 0x7FEFFFFFFFFFFFFF by rw [hs]; decide]
    at hw
  have hlimit := overflowUnits_eq hs
  have hstep := Nat.two_pow_pos s
  generalize hk : (2 ^ 52 + 0) * (2 ^ s * 2) = k at hv
  generalize hl : (2 ^ 52 + (2 ^ 52 - 1)) * (2 ^ s * 2) = l at hw
  have hy : value? (Float.ofBits 0x7FE0000000000000) = some (k / 2 ^ places : ℚ) :=
    value?_of_read hv
  have hx : value? (Float.ofBits 0x7FEFFFFFFFFFFFFF) = some (l / 2 ^ places : ℚ) :=
    value?_of_read hw
  have hnonneg : (0 : ℚ) ≤ k / 2 ^ places := div_nonneg (Nat.cast_nonneg k) one_pos_units.le
  have hlt : (k / 2 ^ places : ℚ) < l / 2 ^ places :=
    div_lt_div_of_pos_right (by exact_mod_cast (by omega : k < l)) one_pos_units
  have hne : (l / 2 ^ places : ℚ) ≠ 0 := (hnonneg.trans_lt hlt).ne'
  have hsum : overflowBound ≤ |truncatedRemainder (k / 2 ^ places) (l / 2 ^ places) +
      l / 2 ^ places| := by
    have hlarge : (overflowUnits : ℚ) ≤ k + l := by
      exact_mod_cast (by omega : overflowUnits ≤ k + l)
    rw [truncatedRemainder_of_lt hnonneg hlt, ← add_div]
    exact (not_lt.mp fun h => (lt_overflowUnits_iff.mp h).not_ge hlarge).trans (le_abs_self _)
  have hmod := read_modulo_of_overflow hy hx hne hsum
  refine ⟨⟨_, _, hy, hx, hne⟩, ?_⟩
  rintro ⟨r, a, hr, ha⟩
  rw [eval_mod _ hx hne, Except.ok.injEq] at hr
  rw [← hr] at ha
  obtain ⟨_, _, hread, -⟩ := exists_read_of_value? ha
  rw [hmod] at hread
  nomatch hread

end Aquarium.Operator
