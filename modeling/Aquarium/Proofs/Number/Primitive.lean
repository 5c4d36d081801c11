import Aquarium.Proofs.Number.Nearest

/-!
# Readings and the primitive operations

The primitive operations on doubles take them apart too: into a sign, a mantissa and an exponent.
Both ways agree (`agrees_read`), so that what the primitive operations do can be told in terms of
values.  They know which doubles are finite (`isFinite_iff`), they order them by their values
(`compare_unpack`), and they cut them to words by dropping what is behind the point
(`toInt_unpack`).
-/

namespace Aquarium.Number

open Float.Model (Format UnpackedFloat)
open Float.Model.UnpackedFloat

/-- What a double is unpacked to, and its reading.  A mantissa is full, unless it has the smallest
exponent. -/
inductive Agrees : UnpackedFloat → Reading → Prop
  | notANumber : Agrees .notANumber .undefined
  | infinity (s : Sign) : Agrees (.infinity s) (.infinite (s == .negative))
  | zero (s : Sign) : Agrees (.zero s) (.finite (s == .negative) 0)
  | finite (s : Sign) {m k : Nat} {e : ℤ} (hpos : 0 < m) (hm : m < 2 ^ 53)
      (hfull : k = 0 ∨ 2 ^ 52 ≤ m) (he : e = k - places) {units : Nat}
      (hunits : units = m * 2 ^ k) : Agrees (.finite s m e hpos) (.finite (s == .negative) units)

section Fields

variable (b : UInt64)

lemma toNat_unpackExponent :
    (@unpackExponent .binary64 b.toBitVec).toNat = ((b >>> 52) &&& 0x7FF).toNat := by
  rw [unpackExponent_def, UInt64.toNat_and, UInt64.toNat_shiftRight]
  exact (Nat.and_two_pow_sub_one_eq_mod (b.toNat >>> 52) 11).symm

lemma toNat_unpackMantissa :
    (@unpackMantissa .binary64 b.toBitVec).toNat = (b &&& 0xFFFFFFFFFFFFF).toNat := by
  rw [unpackMantissa_def, UInt64.toNat_and]
  exact (Nat.and_two_pow_sub_one_eq_mod b.toNat 52).symm

lemma unpackSign_eq :
    (Sign.ofBitVec (@unpackSign .binary64 b.toBitVec) == .negative) = (b >>> 63 != 0) := by
  have hsign : (@unpackSign .binary64 b.toBitVec).toNat = (b >>> 63).toNat := by
    rw [unpackSign_def, UInt64.toNat_shiftRight]
    have hlt := b.toNat_lt
    have hone : b.toNat >>> 63 < 2 := by
      rw [Nat.shiftRight_eq_div_pow]
      omega
    exact Nat.mod_eq_of_lt hone
  have hzero : @unpackSign .binary64 b.toBitVec = 0#1 ↔ b >>> 63 = 0 := by
    rw [← BitVec.toNat_inj, ← UInt64.toNat_inj, hsign]
    rfl
  unfold Sign.ofBitVec
  split_ifs with h
  · simp [hzero.mp h]
  · simp [(not_congr hzero).mp h]

end Fields

/-- The exponent of a double counts from its smallest bit. -/
lemma exponentBias_add : (Format.binary64.exponentBias : ℤ) + (52 : Nat) = places + 1 := rfl

/-- **A double is unpacked to what it is read as.** -/
lemma agrees_read (v : Float) : Agrees v.toModel.unpack (read v) := by
  show Agrees (unpack .binary64 v.toBits.toBitVec) (read v)
  have hones : (-BitVec.ofNat Format.binary64.exponentBits 1).toNat = 2047 := rfl
  have hleast : (BitVec.ofNat Format.binary64.exponentBits 0).toNat = 0 := rfl
  have hempty : (BitVec.ofNat Format.binary64.mantissaBitsWithoutImplicit 0).toNat = 0 := rfl
  simp only [read, ← unpackSign_eq, ← toNat_unpackExponent, ← toNat_unpackMantissa, unpack,
    BitVec.toNat_eq, hones, hleast, hempty]
  generalize v.toBits = b
  have hmantissa : (@unpackMantissa .binary64 b.toBitVec).toNat < 2 ^ 52 :=
    (@unpackMantissa .binary64 b.toBitVec).isLt
  have hfull := toNat_one_append (@unpackMantissa .binary64 b.toBitVec)
  have hbias := exponentBias_add
  split_ifs with hexponent hzero hexponent' hzero
  · exact .infinity _
  · exact .notANumber
  · rw [hzero]
    exact .zero _
  · exact .finite _ _ (by omega) (Or.inl rfl) (by omega) (Nat.mul_one _).symm
  · rw [Nat.shiftLeft_eq, Nat.shiftLeft_eq, Nat.one_mul, ← hfull]
    exact .finite _ _ (by omega) (Or.inr (by omega)) (by omega) rfl

/-! ## Order -/

/-- A full mantissa with a larger exponent wins. -/
lemma mul_two_pow_lt {m n j k : Nat} (hm : m < 2 ^ 53) (hn : 2 ^ 52 ≤ n) (h : j < k) :
    m * 2 ^ j < n * 2 ^ k := by
  calc m * 2 ^ j < 2 ^ 53 * 2 ^ j := Nat.mul_lt_mul_of_pos_right hm (Nat.two_pow_pos j)
    _ = 2 ^ 52 * 2 ^ (j + 1) := by ring
    _ ≤ n * 2 ^ k := Nat.mul_le_mul hn (Nat.pow_le_pow_right Nat.two_pos h)

/-- Of two mantissas with their exponents, the exponents decide first. -/
lemma compare_then_compare {m n j k : Nat} {d e : ℤ} (hm : m < 2 ^ 53) (hn : n < 2 ^ 53)
    (hj : j = 0 ∨ 2 ^ 52 ≤ m) (hk : k = 0 ∨ 2 ^ 52 ≤ n) (hd : d = j - places)
    (he : e = k - places) :
    (compare d e).then (compare m n) = compare (m * 2 ^ j) (n * 2 ^ k) := by
  rcases lt_trichotomy j k with h | rfl | h
  · rw [compare_lt_iff_lt.mpr (show d < e by omega),
      compare_lt_iff_lt.mpr (mul_two_pow_lt hm (hk.resolve_left (by omega)) h)]
    rfl
  · obtain rfl : d = e := by omega
    rw [compare_eq_iff_eq.mpr rfl, Ordering.eq_then, ← cmp_eq_compare, ← cmp_eq_compare]
    exact (cmp_mul_pos_right (Nat.two_pow_pos j) m n).symm
  · rw [compare_gt_iff_gt.mpr (show e < d by omega),
      compare_gt_iff_gt.mpr (mul_two_pow_lt hn (hj.resolve_left (by omega)) h)]
    rfl

lemma compare_div_places (u w : Nat) :
    compare ((u : ℚ) / 2 ^ places) (w / 2 ^ places) = compare u w := by
  have hmono : StrictMono fun n : Nat => (n : ℚ) / 2 ^ places :=
    fun m n h => div_lt_div_of_pos_right (Nat.cast_lt.mpr h) one_pos_units
  rw [← cmp_eq_compare, ← cmp_eq_compare]
  exact hmono.cmp_map_eq u w

lemma compare_neg_neg (a b : ℚ) : compare (-a) (-b) = (compare a b).swap := by
  have hanti : StrictAnti (Neg.neg : ℚ → ℚ) := fun _ _ => neg_lt_neg
  rw [← cmp_eq_compare, ← cmp_eq_compare, cmp_swap]
  exact hanti.cmp_map_eq a b

/-- What a double with a value is unpacked to. -/
lemma unpack_cases {v : Float} {a : ℚ} (hv : value? v = some a) :
    (∃ s, v.toModel.unpack = .zero s ∧ a = 0) ∨
      ∃ (s : Sign) (m k : Nat) (e : ℤ) (hpos : 0 < m),
        v.toModel.unpack = .finite s m e hpos ∧
        m < 2 ^ 53 ∧ (k = 0 ∨ 2 ^ 52 ≤ m) ∧ e = k - places ∧
        a = withSign (s == .negative) ((m * 2 ^ k : Nat) / 2 ^ places) := by
  obtain ⟨negative, u, hread, rfl⟩ := exists_read_of_value? hv
  have hagrees := agrees_read v
  rw [hread] at hagrees
  generalize v.toModel.unpack = x at hagrees
  cases hagrees with
  | zero s => exact Or.inl ⟨s, rfl, by cases s <;> simp [withSign]⟩
  | finite s hpos hm hfull he hunits =>
      exact Or.inr ⟨s, _, _, _, hpos, rfl, hm, hfull, he, by rw [hunits]⟩

/-- **The primitive order of finite doubles is that of their values.** -/
lemma compare_unpack {v w : Float} {a b : ℚ} (hv : value? v = some a) (hw : value? w = some b) :
    v.toModel.unpack.compare w.toModel.unpack = some (compare a b) := by
  have hunits {m k : Nat} (hpos : 0 < m) : (0 : ℚ) < (m * 2 ^ k : Nat) / 2 ^ places :=
    div_pos (Nat.cast_pos.mpr (Nat.mul_pos hpos (Nat.two_pow_pos k))) one_pos_units
  rcases unpack_cases hv with ⟨s, hx, rfl⟩ | ⟨s, m, j, d, hm0, hx, hm, hj, hd, rfl⟩ <;>
    rcases unpack_cases hw with ⟨t, hy, rfl⟩ | ⟨t, n, k, e, hn0, hy, hn, hk, he, rfl⟩ <;>
    rw [hx, hy]
  · rw [compare_eq_iff_eq.mpr rfl]
    rfl
  · have hpos := hunits (k := k) hn0
    cases t with
    | positive => exact congrArg some (compare_lt_iff_lt.mpr hpos).symm
    | negative => exact congrArg some (compare_gt_iff_gt.mpr (neg_neg_of_pos hpos)).symm
  · have hpos := hunits (k := j) hm0
    cases s with
    | positive => exact congrArg some (compare_gt_iff_gt.mpr hpos).symm
    | negative => exact congrArg some (compare_lt_iff_lt.mpr (neg_neg_of_pos hpos)).symm
  · have hposv := hunits (k := j) hm0
    have hposw := hunits (k := k) hn0
    have hcompare :=
      (compare_then_compare hm hn hj hk hd he).trans (compare_div_places _ _).symm
    cases s <;> cases t
    · exact congrArg some ((congrArg Ordering.swap hcompare).trans (compare_neg_neg _ _).symm)
    · exact congrArg some (compare_lt_iff_lt.mpr ((neg_neg_of_pos hposv).trans hposw)).symm
    · exact congrArg some (compare_gt_iff_gt.mpr ((neg_neg_of_pos hposw).trans hposv)).symm
    · exact congrArg some hcompare

section Order

variable {v w : Float} {a b : ℚ} (hv : value? v = some a) (hw : value? w = some b)
include hv hw

lemma lt_iff_value?_lt : v < w ↔ a < b := by
  have hlt : v < w ↔ (v.toModel.unpack.compare w.toModel.unpack == some .lt) = true :=
    decide_eq_true_iff
  rw [hlt, compare_unpack hv hw, beq_iff_eq, Option.some.injEq, compare_lt_iff_lt]

lemma le_iff_value?_le : v ≤ w ↔ a ≤ b := by
  have hle : v ≤ w ↔ (v.toModel.unpack.compare w.toModel.unpack).any (·.isLE) = true :=
    decide_eq_true_iff
  rw [hle, compare_unpack hv hw, Option.any_some, Ordering.isLE_iff_ne_gt,
    compare_gt_iff_gt, not_lt]

lemma beq_iff_value?_eq : (v == w) = true ↔ a = b := by
  have hbeq : (v == w) = (v.toModel.unpack.compare w.toModel.unpack == some .eq) := rfl
  rw [hbeq, compare_unpack hv hw, beq_iff_eq, Option.some.injEq, compare_eq_iff_eq]

end Order

lemma isFinite_iff {v : Float} : v.isFinite = true ↔ ∃ a, value? v = some a := by
  have hagrees := agrees_read v
  have hfinite : v.isFinite = v.toModel.unpack.isFinite := rfl
  rw [hfinite]
  unfold value?
  generalize v.toModel.unpack = x at hagrees
  generalize read v = r at hagrees
  cases hagrees <;> simp [UnpackedFloat.isFinite]

/-! ## Words -/

lemma mantissa_shiftRight (em : ExtendedMantissa) (n : Nat) :
    (em >>> n).mantissa = em.mantissa >>> n := by
  induction n with
  | zero => rfl
  | succ n ih =>
      rw [Nat.shiftRight_succ, ← ih]
      rfl

/-- Shifting to the exponent zero drops what is behind the point. -/
lemma roundToInt_eq (s : Sign) (m k p : Nat) :
    roundToInt s m (k - p : ℤ) = s.apply ((m * 2 ^ k) >>> p : Nat) := by
  -- one of the two shifts is empty
  have hcut : (m <<< (k - p - 0 : ℤ).toNat) >>>
      (0 - ((k - p : ℤ) - (k - p - 0 : ℤ).toNat)).toNat = (m * 2 ^ k) >>> p := by
    rcases Nat.le_total p k with h | h
    · obtain ⟨d, rfl⟩ := Nat.exists_eq_add_of_le h
      have hleft : ((p + d : Nat) - p - 0 : ℤ).toNat = d := by omega
      have hright : (0 - (((p + d : Nat) - p : ℤ) - d)).toNat = 0 := by omega
      rw [hleft, hright, Nat.shiftRight_zero, Nat.shiftLeft_eq, Nat.shiftRight_eq_div_pow,
        Nat.pow_add, Nat.mul_left_comm, Nat.mul_div_cancel_left _ (Nat.two_pow_pos p)]
    · obtain ⟨d, rfl⟩ := Nat.exists_eq_add_of_le h
      have hleft : (k - (k + d : Nat) - 0 : ℤ).toNat = 0 := by omega
      have hright : (0 - ((k - (k + d : Nat) : ℤ) - (0 : Nat))).toNat = d := by omega
      rw [hleft, hright, Nat.shiftLeft_zero, Nat.shiftRight_eq_div_pow, Nat.shiftRight_eq_div_pow,
        Nat.pow_add, Nat.mul_comm (2 ^ k), Nat.mul_div_mul_right _ _ (Nat.two_pow_pos k)]
  have hmantissa := mantissa_shiftRight
    (.ofMantissaAndAccuracy (m <<< (k - p - 0 : ℤ).toNat) .exact)
    (0 - ((k - p : ℤ) - (k - p - 0 : ℤ).toNat)).toNat
  exact congrArg (fun n : Nat => s.apply n) (hmantissa.trans hcut)

/-- **Cutting a double drops what is behind the point.** -/
lemma toInt_unpack {v : Float} {negative : Bool} {units : Nat} (h : read v = .finite negative units)
    (low high : ℤ) : v.toModel.unpack.toInt low high = signed negative (units >>> places) := by
  have hagrees := agrees_read v
  rw [h] at hagrees
  generalize v.toModel.unpack = x at hagrees
  cases hagrees with
  | zero s => cases s <;> simp [toInt, signed]
  | finite s hpos hm hfull he hunits =>
      simp only [toInt, he, roundToInt_eq, ← hunits]
      cases s <;> rfl

lemma toNat_toInt_unpack {v : Float} {n : Nat} (h : value? v = some (n : ℚ)) (low high : ℤ) :
    (v.toModel.unpack.toInt low high).toNat = n := by
  obtain ⟨negative, u, hread, -⟩ := exists_read_of_value? h
  have hinteger : integer? v = some (n : ℤ) := integer?_eq_some_iff.mpr (by exact_mod_cast h)
  simp only [integer?, hread, Option.ite_none_right_eq_some, Option.some.injEq] at hinteger
  have hsigned : signed negative (u >>> places) = n := hinteger.2
  rw [toInt_unpack hread, hsigned, Int.toNat_natCast]

lemma toNat_toUInt64 {v : Float} {n : Nat} (h : value? v = some (n : ℚ)) (hn : n < UInt64.size) :
    v.toUInt64.toNat = n := by
  have hcut : v.toUInt64 =
      UInt64.ofNatClamp (v.toModel.unpack.toInt 0 (UInt64.size - 1)).toNat := rfl
  rw [hcut, toNat_toInt_unpack h, UInt64.ofNatClamp, dif_pos hn, UInt64.toNat_ofNatLT]

lemma toNat_toUInt32 {v : Float} {n : Nat} (h : value? v = some (n : ℚ)) (hn : n < UInt32.size) :
    v.toUInt32.toNat = n := by
  have hcut : v.toUInt32 =
      UInt32.ofNatClamp (v.toModel.unpack.toInt 0 (UInt32.size - 1)).toNat := rfl
  rw [hcut, toNat_toInt_unpack h, UInt32.ofNatClamp, dif_pos hn, UInt32.toNat_ofNatLT]
end Aquarium.Number
