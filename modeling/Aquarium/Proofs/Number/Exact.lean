import Aquarium.Proofs.Number.Value
import Mathlib

/-!
# Whole numbers are exact

A double made from bits has these bits, unless they stand for no finite number (`toBits_ofBits`).
So a number of units that needs no more bits than a double has room for is read back as it was
written (`read_ofUnits`), and a whole number of at most 53 bits is the value of its double
(`value?_ofInt`).  Code points are such numbers (`isChar_ofChar`), so different characters have
different doubles (`ofChar_injective`).
-/

namespace Aquarium.Number

open Float.Model (Format)
open Float.Model.UnpackedFloat

/-! ## Bits of a double -/

/-- A word is put together from its sign, its exponent and its mantissa. -/
lemma packComponents_unpack (b : BitVec Format.binary64.numBits) :
    packComponents .binary64 (.ofBitVec (unpackSign b)) (unpackExponent b) (unpackMantissa b) =
      b := by
  have hsign : ∀ v : BitVec 1, (Sign.ofBitVec v).toBitVec = v := by decide
  simp only [packComponents, hsign, unpackSign, unpackExponent, unpackMantissa, BitVec.extractLsb]
  ext i hi
  grind

/-- The bit in front of a mantissa counts `2 ^ 52`. -/
lemma toNat_one_append (mantissa : BitVec 52) :
    (1#1 ++ mantissa).toNat = 2 ^ 52 + mantissa.toNat := by
  rw [BitVec.toNat_append, ← Nat.shiftLeft_add_eq_or_of_lt mantissa.isLt]
  rfl

/-- A word that is not all ones in its exponent survives being taken apart and put together. -/
lemma pack_unpack {b : BitVec Format.binary64.numBits} (h : unpackExponent b ≠ -1#_) :
    pack .binary64 (unpack .binary64 b) = b := by
  have hmantissa : (unpackMantissa b).toNat < 2 ^ 52 := (unpackMantissa b).isLt
  simp only [unpack, if_neg h]
  split_ifs with hzero hempty
  · -- zero
    conv_rhs => rw [← packComponents_unpack b, hzero, hempty]
    rfl
  · -- subnormal: the mantissa has no leading bit
    have hlog : (unpackMantissa b).toNat.log2 < 52 := by
      refine (Nat.log2_lt fun h0 => hempty ?_).mpr hmantissa
      exact BitVec.toNat_inj.mp (by simpa using h0)
    conv_rhs => rw [← packComponents_unpack b, hzero]
    simp only [pack, hzero]
    rw [if_neg (by decide), if_neg (by simp only [Format.mantissaBits]; omega)]
    simp
  · -- normal: the leading bit is dropped
    have hexponent : (unpackExponent b).toNat < 2047 := by
      have hlt : (unpackExponent b).toNat < 2 ^ 11 := (unpackExponent b).isLt
      have hne : (unpackExponent b).toNat ≠ 2047 :=
        fun h' => h (BitVec.toNat_inj.mp (by simpa using h'))
      omega
    have hsignificand := toNat_one_append (unpackMantissa b)
    have hlog : (1#1 ++ unpackMantissa b).toNat.log2 = 52 :=
      (Nat.log2_eq_iff (by omega)).mpr (by omega)
    have hbiased : (((unpackExponent b).toNat : Int) -
        (Format.binary64.exponentBias + Format.binary64.mantissaBitsWithoutImplicit) +
        Format.binary64.exponentBias + Format.binary64.mantissaBitsWithoutImplicit).toNat =
        (unpackExponent b).toNat := by omega
    conv_rhs => rw [← packComponents_unpack b]
    simp only [pack, hbiased, hlog]
    rw [if_neg (by simp only [Format.binary64]; omega), if_pos (by rfl)]
    congr 1
    · simp
    · refine BitVec.toNat_inj.mp ?_
      rw [BitVec.toNat_ofNat, hsignificand]
      exact (Nat.add_mod_left _ _).trans (Nat.mod_eq_of_lt hmantissa)

/-- A double keeps the bits it is made from, if their exponent is that of a finite number. -/
lemma toBits_ofBits {b : UInt64} (h : b.toNat / 2 ^ 52 % 2 ^ 11 ≠ 2047) :
    (Float.ofBits b).toBits = b := by
  have hexponent : @unpackExponent .binary64 b.toBitVec ≠ -1#_ := by
    intro hones
    refine h ?_
    have hnat := congrArg BitVec.toNat hones
    simpa [unpackExponent, BitVec.extractLsb, Nat.shiftRight_eq_div_pow] using hnat
  show UInt64.ofBitVec (pack .binary64 (unpack .binary64 b.toBitVec)) = b
  rw [pack_unpack hexponent]

/-- The word with the given sign, exponent and mantissa. -/
def word (negative : Bool) (exponent mantissa : Nat) : Nat :=
  (if negative then 2 ^ 63 else 0) + (exponent * 2 ^ 52 + mantissa)

section Fields

variable (negative : Bool) {exponent mantissa : Nat}

/-- The fields of a word do not overlap. -/
lemma word_fields (he : exponent < 2 ^ 11) (hm : mantissa < 2 ^ 52) :
    word negative exponent mantissa < 2 ^ 64 ∧
      word negative exponent mantissa / 2 ^ 63 = negative.toNat ∧
      word negative exponent mantissa / 2 ^ 52 % 2 ^ 11 = exponent ∧
      word negative exponent mantissa % 2 ^ 52 = mantissa := by
  unfold word
  cases negative <;> simp only [Bool.toNat, cond, if_true, Bool.false_eq_true, if_false] <;> omega

/-- A double is read as its word says, if the exponent is that of a finite number. -/
lemma read_ofBits_word (he : exponent < 2047) (hm : mantissa < 2 ^ 52) :
    read (Float.ofBits (UInt64.ofNat (word negative exponent mantissa))) =
      .finite negative
        (if exponent = 0 then mantissa else ((1 <<< 52) + mantissa) <<< (exponent - 1)) := by
  obtain ⟨hlt, hsign, hexponent, hmantissa⟩ :=
    word_fields negative (Nat.lt_succ_of_lt he) hm
  generalize word negative exponent mantissa = w at hlt hsign hexponent hmantissa
  have hw : (UInt64.ofNat w).toNat = w := UInt64.toNat_ofNat_of_lt' hlt
  have hbits : (Float.ofBits (UInt64.ofNat w)).toBits = UInt64.ofNat w :=
    toBits_ofBits (by rw [hw, hexponent]; exact he.ne)
  have hsign' : (UInt64.ofNat w >>> 63 != 0) = negative := by
    have hshift : (UInt64.ofNat w >>> 63).toNat = negative.toNat := by
      rw [UInt64.toNat_shiftRight, hw, ← hsign]
      exact Nat.shiftRight_eq_div_pow w 63
    rw [Bool.eq_iff_iff, bne_iff_ne, ne_eq, ← UInt64.toNat_inj, hshift]
    cases negative <;> decide
  have hexponent' : ((UInt64.ofNat w >>> 52) &&& 0x7FF).toNat = exponent := by
    rw [UInt64.toNat_and, UInt64.toNat_shiftRight, hw, ← hexponent, ← Nat.shiftRight_eq_div_pow]
    exact Nat.and_two_pow_sub_one_eq_mod (w >>> 52) 11
  have hmantissa' : (UInt64.ofNat w &&& 0xFFFFFFFFFFFFF).toNat = mantissa := by
    rw [UInt64.toNat_and, hw, ← hmantissa]
    exact Nat.and_two_pow_sub_one_eq_mod w 52
  simp only [read, hbits, hsign', hexponent', hmantissa']
  rw [if_neg he.ne]
  split_ifs <;> rfl

end Fields

/-! ## Numbers that need no rounding -/

lemma roundDiv_mul (q : Nat) {den : Nat} (h : 0 < den) : roundDiv (q * den) den = q := by
  simp only [roundDiv, Nat.mul_div_cancel q h, Nat.mul_mod_left, Nat.mul_zero, if_pos h]

/-- Without its spare bits, a number of units has at most 53 bits, and no fewer if there are
any spare ones. -/
lemma spareBits_spec (units : Nat) :
    units < 2 ^ 53 * 2 ^ spareBits units ∧
      (spareBits units = 0 ∨ 2 ^ 52 * 2 ^ spareBits units ≤ units) := by
  have hhigh := Nat.lt_log2_self (n := units)
  by_cases hroom : units.log2 ≤ 52
  · have hspare : spareBits units = 0 := Nat.sub_eq_zero_of_le hroom
    have hsmall : 2 ^ (units.log2 + 1) ≤ 2 ^ 53 :=
      Nat.pow_le_pow_right Nat.two_pos (Nat.succ_le_succ hroom)
    rw [hspare]
    omega
  · have hlog : units.log2 = 52 + spareBits units := by
      unfold spareBits
      omega
    have hpos : units ≠ 0 := by
      rintro rfl
      exact hroom (by decide)
    have hlow := Nat.log2_self_le hpos
    rw [hlog, Nat.pow_add] at hlow
    rw [hlog, Nat.add_right_comm, Nat.pow_add] at hhigh
    exact ⟨hhigh, Or.inr hlow⟩

lemma significand_bounds {units q : Nat} (hq : units = q * 2 ^ spareBits units) :
    q < 2 ^ 53 ∧ (spareBits units = 0 ∨ 2 ^ 52 ≤ q) := by
  obtain ⟨hhigh, hlow⟩ := spareBits_spec units
  have hpow := Nat.two_pow_pos (spareBits units)
  generalize spareBits units = spare at hq hpow hlow hhigh
  rw [hq] at hlow hhigh
  refine ⟨Nat.lt_of_mul_lt_mul_right hhigh, ?_⟩
  exact hlow.imp_right fun h => Nat.le_of_mul_le_mul_right h hpow

/-- A number that needs all the bits of a shift `s` does not fit a smaller one. -/
lemma shift_le {n s t : Nat} (hs : s = 0 ∨ 2 ^ 52 * 2 ^ s ≤ n) (ht : n < 2 ^ 53 * 2 ^ t) :
    s ≤ t := by
  by_contra! hlt
  have hlow : 2 ^ 52 * 2 ^ s ≤ n := hs.resolve_left (by omega)
  have hpow : 2 ^ 53 * 2 ^ t ≤ 2 ^ 52 * 2 ^ s := by
    calc 2 ^ 53 * 2 ^ t = 2 ^ 52 * 2 ^ (t + 1) := by ring
      _ ≤ 2 ^ 52 * 2 ^ s := Nat.mul_le_mul_left _ (Nat.pow_le_pow_right Nat.two_pos hlt)
  omega

/-- A significand of at most 53 bits, and no fewer if it is shifted, has its shift to spare. -/
lemma spareBits_mul {q shift : Nat} (hq : q < 2 ^ 53) (hlead : shift = 0 ∨ 2 ^ 52 ≤ q) :
    spareBits (q * 2 ^ shift) = shift := by
  obtain ⟨hhigh, hlow⟩ := spareBits_spec (q * 2 ^ shift)
  refine le_antisymm (shift_le hlow ?_) (shift_le ?_ hhigh)
  · exact Nat.mul_lt_mul_of_pos_right hq (Nat.two_pow_pos shift)
  · exact hlead.imp_right fun h => Nat.mul_le_mul_right _ h

/-- A shift and a significand, put together as the bits of a magnitude, are read apart again.  A
significand that has grown to `2 ^ 53` is carried into the exponent and is read as the power of
two it is. -/
lemma read_ofBits_shifted (negative : Bool) {shift q : Nat} (hq : q ≤ 2 ^ 53)
    (hlead : shift = 0 ∨ 2 ^ 52 ≤ q) (hfinite : shift * 2 ^ 52 + q < 2047 * 2 ^ 52) :
    read (Float.ofBits
      (UInt64.ofNat ((if negative then 1 <<< 63 else 0) + (shift * 2 ^ 52 + q)))) =
      .finite negative (q * 2 ^ shift) := by
  have hword : (if negative then 1 <<< 63 else 0) + (shift * 2 ^ 52 + q) =
      word negative (shift + q / 2 ^ 52) (q % 2 ^ 52) := by
    rw [word, Nat.shiftLeft_eq, Nat.one_mul]
    omega
  rw [hword, read_ofBits_word _ (by omega) (Nat.mod_lt q (Nat.two_pow_pos 52))]
  congr 1
  split_ifs with hsubnormal
  · have hshift : shift = 0 := by omega
    rw [hshift]
    omega
  · rw [Nat.shiftLeft_eq, Nat.shiftLeft_eq]
    rcases hq.lt_or_eq with hlt | rfl
    · have hleading : q / 2 ^ 52 = 1 := by omega
      have hsignificand : 1 * 2 ^ 52 + q % 2 ^ 52 = q := by omega
      rw [hsignificand, hleading, Nat.add_sub_cancel]
    · have hcarry : shift + 2 ^ 53 / 2 ^ 52 - 1 = shift + 1 := by omega
      rw [hcarry, Nat.pow_succ]
      omega

/-- A number of units whose spare bits are empty is read back as it was written. -/
lemma read_ofUnits {units q : Nat} (hq : units = q * 2 ^ spareBits units)
    (hfinite : spareBits units < 2046) (negative : Bool) :
    read (ofUnits negative units) = .finite negative units := by
  obtain ⟨hq53, hq52⟩ := significand_bounds hq
  have hround : roundDiv units (1 <<< spareBits units) = q := by
    have hmul := roundDiv_mul q (Nat.two_pow_pos (spareBits units))
    rwa [← hq, ← Nat.one_mul (2 ^ spareBits units), ← Nat.shiftLeft_eq] at hmul
  have hbits : magnitudeBits units 1 = spareBits units * 2 ^ 52 + q := by
    simp only [magnitudeBits, Nat.div_one, hround]
    simp only [Nat.shiftLeft_eq]
    omega
  rw [ofUnits, ofRatio, hbits, read_ofBits_shifted negative hq53.le hq52 (by omega), ← hq]

/-- Whole numbers of at most 53 bits have no bits to spare that are not empty. -/
lemma exists_significand {n : Nat} (h : n < 2 ^ 53) (p : Nat) :
    ∃ q, n * 2 ^ p = q * 2 ^ spareBits (n * 2 ^ p) ∧ spareBits (n * 2 ^ p) ≤ p := by
  have hspare : spareBits (n * 2 ^ p) ≤ p :=
    shift_le (spareBits_spec _).2 (Nat.mul_lt_mul_of_pos_right h (Nat.two_pow_pos p))
  refine ⟨n * 2 ^ (p - spareBits (n * 2 ^ p)), ?_, hspare⟩
  rw [Nat.mul_assoc, ← Nat.pow_add, Nat.sub_add_cancel hspare]

/-- A whole number of at most 53 bits is the value of its double. -/
theorem value?_ofInt {n : Int} (h : n.natAbs < 2 ^ 53) : value? (ofInt n) = some (n : ℚ) := by
  have hread : read (ofInt n) = .finite (n < 0) (n.natAbs * 2 ^ places) := by
    obtain ⟨q, hq, hspare⟩ := exists_significand h places
    rw [ofInt, Nat.shiftLeft_eq]
    exact read_ofUnits hq (hspare.trans_lt (by decide)) _
  simp only [value?, hread, signed]
  generalize places = p
  have hpos : (2 : ℚ) ^ p ≠ 0 := by positivity
  have hsigned : (if n < 0 then -((n.natAbs * 2 ^ p : Nat) : Int) else (n.natAbs * 2 ^ p : Nat)) =
      n * 2 ^ p := by
    rcases lt_or_ge n 0 with hn | hn
    · rw [if_pos hn, Nat.cast_mul, Int.ofNat_natAbs_of_nonpos hn.le]
      push_cast
      ring
    · rw [if_neg hn.not_gt, Nat.cast_mul, Int.natAbs_of_nonneg hn]
      push_cast
      ring
  simp only [decide_eq_true_eq, hsigned, Option.some.injEq]
  rw [div_eq_iff hpos]
  push_cast
  rfl

/-- The double of a code point is the code point. -/
theorem isChar_ofChar (c : Char) : IsChar (ofChar c) c := by
  have hsmall : (c.toNat : Int).natAbs < 2 ^ 53 := by
    have hvalid : c.toNat.isValidChar := c.valid
    rcases hvalid with hlow | ⟨-, hhigh⟩ <;> omega
  have hvalue := value?_ofInt hsmall
  rw [Int.cast_natCast] at hvalue
  exact hvalue

@[simp] lemma char?_ofChar (c : Char) : char? (ofChar c) = some c :=
  char?_eq_some.mpr (isChar_ofChar c)

lemma ofChar_injective : Function.Injective ofChar := by
  intro c d h
  simpa using congrArg char? h

end Aquarium.Number
