import Aquarium.Instruction
import Aquarium.Proofs.Number.Primitive
import Aquarium.Proofs.Number.Rounding

/-!
# Conversions are exact

An index or a character is found in a double by exact comparison with its value.  The primitive
operations find the same: a double that is whole and lies between the limits is cut to a word, and
between the limits cutting loses nothing (`toNat_toUInt64`, `toNat_toUInt32`).

The limit of indices needs care.  The largest one is no double, and as a limit it is rounded up to
`2 ^ 64` (`value?_ofNat_largest`).  So it is the limit itself that has to be excluded, and nothing
that is smaller is excluded with it.
-/

namespace Aquarium.Number

/-- The double is a whole number. -/
def IsWhole (v : Float) : Prop := ∃ n : ℤ, value? v = some (n : ℚ)

variable {v w : Float}

/-! ## Limits -/

lemma value?_ofNat {n : Nat} (h : n < 2 ^ 53) : value? (ofNat n) = some (n : ℚ) := by
  have hvalue := value?_ofInt (n := n) (by omega)
  rw [Int.cast_natCast] at hvalue
  exact hvalue

section Largest

variable {n : Nat} (hn : n + 1 = 2 ^ 64) (p : Nat)
include hn

lemma spareBits_largest : spareBits (n * 2 ^ p) = 11 + p := by
  have hpow := Nat.two_pow_pos p
  obtain ⟨hhigh, hlow⟩ := spareBits_spec (n * 2 ^ p)
  refine le_antisymm (shift_le hlow ?_) (shift_le (Or.inr ?_) hhigh)
  · rw [Nat.pow_add, ← Nat.mul_assoc]
    exact Nat.mul_lt_mul_of_pos_right (by omega) hpow
  · rw [Nat.pow_add, ← Nat.mul_assoc]
    exact Nat.mul_le_mul_right _ (by omega)

/-- All bits behind the 53 that a double has room for are set, so these are rounded up. -/
lemma roundedSignificand_largest : roundedSignificand (n * 2 ^ p) 1 = 2 ^ 53 := by
  obtain ⟨q, hq⟩ : ∃ q, q + 1 = 2 ^ 53 := ⟨2 ^ 53 - 1, by norm_num⟩
  have hpow := Nat.two_pow_pos p
  have hle := roundedSignificand_le (n * 2 ^ p) Nat.one_pos
  have hup : ¬ roundedSignificand (n * 2 ^ p) 1 ≤ q := by
    rw [roundedSignificand, roundDiv_le_iff_of_odd (shiftLeft_pos Nat.one_pos _) (by omega),
      Nat.div_one, spareBits_largest hn, Nat.shiftLeft_eq, Nat.one_mul, Nat.pow_add,
      ← Nat.mul_assoc, ← Nat.mul_assoc, Nat.mul_lt_mul_right hpow]
    omega
  omega

lemma read_ofRatio_largest {s : Nat} (hs : s = 2044) (hp : 64 + p ≤ s) :
    read (ofRatio false (n * 2 ^ p) 1) = .finite false (2 ^ 64 * 2 ^ p) := by
  have hfinite : n * 2 ^ p < overflowUnits * 1 := by
    rw [overflowUnits_eq hs, Nat.mul_one]
    calc n * 2 ^ p < 2 ^ 64 * 2 ^ p :=
          Nat.mul_lt_mul_of_pos_right (by omega) (Nat.two_pow_pos p)
      _ = 2 ^ (64 + p) := (Nat.pow_add 2 64 p).symm
      _ ≤ 2 ^ s := Nat.pow_le_pow_right Nat.two_pos hp
      _ ≤ (2 ^ 54 - 1) * 2 ^ s := Nat.le_mul_of_pos_left _ (by norm_num)
  rw [read_ofRatio _ Nat.one_pos false hfinite, roundedSignificand_largest hn, Nat.div_one,
    spareBits_largest hn, Nat.pow_add, ← Nat.mul_assoc]
  rfl

end Largest

/-- As a double, the largest index is `2 ^ 64`. -/
lemma value?_ofNat_largest : value? (ofNat (2 ^ 64 - 1)) = some (2 ^ 64) := by
  have hread : read (ofNat (2 ^ 64 - 1)) = .finite false (2 ^ 64 * 2 ^ places) := by
    obtain ⟨n, hn⟩ : ∃ n, n = 2 ^ 64 - 1 := ⟨_, rfl⟩
    rw [← hn, ofNat, ofUnits, Nat.shiftLeft_eq,
      read_ofRatio_largest (by omega) places rfl (by decide)]
  rw [value?_of_read hread, Nat.cast_mul, Nat.cast_pow, Nat.cast_pow, Nat.cast_ofNat,
    mul_div_cancel_right₀ _ one_pos_units.ne']
  rfl

/-! ## Conversions by primitive operations -/

/-- A whole number that is not negative is natural. -/
lemma exists_natural_iff :
    (∃ n : Nat, value? v = some (n : ℚ)) ↔ IsWhole v ∧ ofNat 0 ≤ v := by
  have hzero : value? (ofNat 0) = some ((0 : Nat) : ℚ) := value?_ofNat (by norm_num)
  constructor
  · rintro ⟨n, hn⟩
    exact ⟨⟨n, by exact_mod_cast hn⟩, (le_iff_value?_le hzero hn).mpr (by positivity)⟩
  · rintro ⟨⟨z, hz⟩, hle⟩
    have hnonneg : 0 ≤ z := by exact_mod_cast (le_iff_value?_le hzero hz).mp hle
    obtain ⟨n, rfl⟩ := Int.eq_ofNat_of_zero_le hnonneg
    exact ⟨n, by exact_mod_cast hz⟩

/-- **Below the limit, cutting finds the index.** -/
lemma index?_eq_some_iff_toUInt64 {n : Nat} :
    index? v = some n ↔
      v.isFinite = true ∧ IsWhole v ∧ ofNat 0 ≤ v ∧ v < ofNat (2 ^ 64 - 1) ∧
        v.toUInt64.toNat = n := by
  rw [index?_eq_some]
  constructor
  · rintro ⟨hvalue, hlt⟩
    obtain ⟨hwhole, hnonneg⟩ := exists_natural_iff.mp ⟨n, hvalue⟩
    refine ⟨isFinite_iff.mpr ⟨_, hvalue⟩, hwhole, hnonneg, ?_, toNat_toUInt64 hvalue hlt⟩
    exact (lt_iff_value?_lt hvalue value?_ofNat_largest).mpr (by exact_mod_cast hlt)
  · rintro ⟨-, hwhole, hnonneg, hbelow, hcut⟩
    obtain ⟨m, hvalue⟩ := exists_natural_iff.mpr ⟨hwhole, hnonneg⟩
    have hlt : m < 2 ^ 64 := by
      exact_mod_cast (lt_iff_value?_lt hvalue value?_ofNat_largest).mp hbelow
    rw [toNat_toUInt64 hvalue hlt] at hcut
    exact hcut ▸ ⟨hvalue, hlt⟩

/-- **Up to the limit, cutting finds the code point.** -/
lemma char?_eq_some_iff_toUInt32 {c : Char} :
    char? v = some c ↔
      v.isFinite = true ∧ IsWhole v ∧ ofNat 0 ≤ v ∧ v ≤ ofNat (2 ^ 32 - 1) ∧
        scalar? v.toUInt32.toNat = some c := by
  have hlimit : value? (ofNat (2 ^ 32 - 1)) = some ((2 ^ 32 - 1 : Nat) : ℚ) :=
    value?_ofNat (by norm_num)
  rw [char?_eq_some]
  constructor
  · intro hvalue
    obtain ⟨hwhole, hnonneg⟩ := exists_natural_iff.mp ⟨_, hvalue⟩
    have hlt : c.toNat < 2 ^ 32 := c.val.toNat_lt
    refine ⟨isFinite_iff.mpr ⟨_, hvalue⟩, hwhole, hnonneg, ?_, ?_⟩
    · exact (le_iff_value?_le hvalue hlimit).mpr (Nat.cast_le.mpr (Nat.le_pred_of_lt hlt))
    · rw [toNat_toUInt32 hvalue hlt, scalar?_eq_some]
  · rintro ⟨-, hwhole, hnonneg, hbelow, hcut⟩
    obtain ⟨m, hvalue⟩ := exists_natural_iff.mpr ⟨hwhole, hnonneg⟩
    have hle : m ≤ 2 ^ 32 - 1 := Nat.cast_le.mp ((le_iff_value?_le hvalue hlimit).mp hbelow)
    rw [toNat_toUInt32 hvalue (Nat.lt_of_le_pred (by norm_num) hle), scalar?_eq_some] at hcut
    rwa [hcut] at hvalue

/-- **Conversions are exact.**  A double is an index exactly if it is finite and its value is a
natural number of at most 64 bits, and it is a character exactly if its value is the code point.
The primitive operations agree: they are applied to whole numbers between the limits, of which the
one for indices is rounded up to `2 ^ 64` and excluded, and cutting gives the value itself.  Both
zeros are the index zero.  A character is found again in its code point, and with it its
instruction.  Doubles that are the same index or the same character are equal as numbers. -/
theorem conversions_are_exact :
    (∀ v : Float, v.isFinite = true ↔ ∃ a, value? v = some a) ∧
      (∀ v n, index? v = some n ↔ value? v = some (n : ℚ) ∧ n < 2 ^ 64) ∧
      (∀ v n, index? v = some n ↔
        v.isFinite = true ∧ IsWhole v ∧ ofNat 0 ≤ v ∧ v < ofNat (2 ^ 64 - 1) ∧
          v.toUInt64.toNat = n) ∧
      value? (ofNat (2 ^ 64 - 1)) = some (2 ^ 64) ∧
      (∀ negative, index? (ofUnits negative 0) = some 0) ∧
      (∀ v c, char? v = some c ↔ value? v = some (c.toNat : ℚ)) ∧
      (∀ v c, char? v = some c ↔
        v.isFinite = true ∧ IsWhole v ∧ ofNat 0 ≤ v ∧ v ≤ ofNat (2 ^ 32 - 1) ∧
          scalar? v.toUInt32.toNat = some c) ∧
      (∀ c, char? (ofChar c) = some c ∧ Instruction.ofCell (ofChar c) = Instruction.ofChar c) ∧
      (∀ v w n, index? v = some n → index? w = some n → value? v = value? w ∧ (v == w) = true) ∧
      (∀ v w c, char? v = some c → char? w = some c → value? v = value? w ∧ (v == w) = true) := by
  refine ⟨fun v => isFinite_iff, fun v n => index?_eq_some, fun v n => index?_eq_some_iff_toUInt64,
    value?_ofNat_largest, fun negative => ?_, fun v c => char?_eq_some,
    fun v c => char?_eq_some_iff_toUInt32, fun c => ⟨char?_ofChar c, ?_⟩, ?_, ?_⟩
  · have hzero := value?_of_read (isMagnitude_zero.read_ofUnits negative)
    refine index?_eq_some.mpr ⟨hzero.trans ?_, by norm_num⟩
    cases negative <;> simp [withSign]
  · simp only [Instruction.ofCell, char?_ofChar]
  · intro v w n hv hw
    have hvalue := (index?_eq_some.mp hv).1
    have hvalue' := (index?_eq_some.mp hw).1
    exact ⟨hvalue.trans hvalue'.symm, (beq_iff_value?_eq hvalue hvalue').mpr rfl⟩
  · intro v w c hv hw
    have hvalue := char?_eq_some.mp hv
    have hvalue' := char?_eq_some.mp hw
    exact ⟨hvalue.trans hvalue'.symm, (beq_iff_value?_eq hvalue hvalue').mpr rfl⟩

end Aquarium.Number
