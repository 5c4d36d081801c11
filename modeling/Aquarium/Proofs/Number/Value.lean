import Aquarium.Number.Rounded
import Aquarium.Number.Whole
import Mathlib.Tactic

/-!
# The number a double stands for

A finite double is a signed number of units, and `2 ^ places` units are one.  `Number.value?` is
the rational number this makes.  A double names a natural number exactly if that is its value
(`natural?_eq_some_iff`), and an index if the number is small enough (`index?_eq_some_iff`).

`IsIndex` and `IsChar` say in terms of the value that a double is an index or the code point of a
character, and the conversions find exactly these (`index?_eq_some`, `char?_eq_some`).

A double has 53 significant bits, so only small ones are odd (`lt_of_odd`).  In particular the
largest number of 64 bits is the value of no double, and every index has a successor among the
numbers of 64 bits (`IsIndex.succ_lt`).
-/

namespace Aquarium.Number

/-- The exact value of a double, if it is finite. -/
def value? (v : Float) : Option ℚ :=
  match read v with
  | .finite negative units => some (signed negative units / 2 ^ places)
  | _ => none

/-! The next two lemmas count `2 ^ p` units as one for any `p`, since the real number of units is
too large to be computed with. -/

/-- A number of units makes whole ones if nothing is lost by counting in ones. -/
lemma shiftRight_eq_iff {units n p : Nat} :
    (units >>> p) <<< p = units ∧ units >>> p = n ↔ units = n * 2 ^ p := by
  rw [Nat.shiftLeft_eq, Nat.shiftRight_eq_div_pow]
  constructor
  · rintro ⟨h, rfl⟩
    exact h.symm
  · rintro rfl
    rw [Nat.mul_div_cancel _ (Nat.two_pow_pos p)]
    exact ⟨rfl, rfl⟩

/-- The value of a number of units is natural if they make whole ones and are not negative. -/
lemma signed_div_eq_iff {negative : Bool} {units n p : Nat} :
    (signed negative units : ℚ) / 2 ^ p = n ↔
      units = n * 2 ^ p ∧ (negative = false ∨ units = 0) := by
  have hpos : (0 : ℚ) < 2 ^ p := by positivity
  rw [div_eq_iff hpos.ne']
  cases negative with
  | false =>
      simp only [signed, Bool.false_eq_true, if_false, Int.cast_natCast, true_or, and_true]
      exact_mod_cast Iff.rfl
  | true =>
      simp only [signed, if_true, Int.cast_neg, Int.cast_natCast, Bool.true_eq_false, false_or]
      have hn : (0 : ℚ) ≤ n * 2 ^ p := by positivity
      constructor
      · intro h
        have hzero : (units : ℚ) = 0 := by
          have hunits : (0 : ℚ) ≤ units := by positivity
          linarith
        rw [hzero, neg_zero] at h
        have hunits : units = 0 := by exact_mod_cast hzero
        rw [hunits]
        exact ⟨by exact_mod_cast h, rfl⟩
      · rintro ⟨h, hzero⟩
        rw [hzero] at h
        rw [hzero, Nat.cast_zero, neg_zero]
        exact_mod_cast h

theorem natural?_eq_some_iff {v : Float} {n : Nat} :
    natural? v = some n ↔ value? v = some (n : ℚ) := by
  unfold natural? value?
  cases read v with
  | finite negative units =>
      simp only [Option.ite_none_right_eq_some, Option.some.injEq]
      generalize places = p
      rw [signed_div_eq_iff, ← shiftRight_eq_iff]
      tauto
  | infinite negative => simp
  | undefined => simp

/-- The value of a number of units is an integer if they make whole ones. -/
lemma signed_div_eq_int_iff {negative : Bool} {units p : Nat} {n : ℤ} :
    (signed negative units : ℚ) / 2 ^ p = n ↔
      (units >>> p) <<< p = units ∧ signed negative (units >>> p) = n := by
  have hpos : (0 : ℚ) < 2 ^ p := by positivity
  have hposint : (0 : ℤ) < 2 ^ p := by positivity
  rw [div_eq_iff hpos.ne', Nat.shiftLeft_eq, Nat.shiftRight_eq_div_pow]
  have hcast : (signed negative units : ℚ) = n * 2 ^ p ↔ signed negative units = n * 2 ^ p := by
    exact_mod_cast Iff.rfl
  rw [hcast]
  constructor
  · intro h
    have hunits : units = n.natAbs * 2 ^ p := by
      have habs := congrArg Int.natAbs h
      rw [Int.natAbs_mul, Int.natAbs_pow] at habs
      cases negative <;> simpa [signed] using habs
    have hdiv : units / 2 ^ p = n.natAbs := by
      rw [hunits, Nat.mul_div_cancel _ (Nat.two_pow_pos p)]
    refine ⟨by rw [hdiv, ← hunits], ?_⟩
    refine mul_right_cancel₀ hposint.ne' (Eq.trans ?_ h)
    rw [hdiv, hunits]
    cases negative <;> simp [signed]
  · rintro ⟨hunits, rfl⟩
    nth_rewrite 1 [← hunits]
    cases negative <;> simp [signed]

/-- A double is an integer exactly if that is its value. -/
lemma integer?_eq_some_iff {v : Float} {n : ℤ} : integer? v = some n ↔ value? v = some (n : ℚ) := by
  unfold integer? value?
  cases read v with
  | finite negative units =>
      simp only [Option.ite_none_right_eq_some, Option.some.injEq]
      generalize places = p
      rw [signed_div_eq_int_iff]
      rfl
  | infinite negative => simp
  | undefined => simp

theorem index?_eq_some_iff {v : Float} {n : Nat} :
    index? v = some n ↔ value? v = some (n : ℚ) ∧ n < indexBound := by
  rw [index?, Option.filter_eq_some_iff, natural?_eq_some_iff, decide_eq_true_iff]

/-! ## Indices, characters and zero -/

/-- The double is a natural number of at most 64 bits. -/
def IsIndex (v : Float) (n : Nat) : Prop := value? v = some (n : ℚ) ∧ n < 2 ^ 64

/-- The double is the code point of a character. -/
def IsChar (v : Float) (c : Char) : Prop := value? v = some (c.toNat : ℚ)

instance (v : Float) (n : Nat) : Decidable (IsIndex v n) :=
  inferInstanceAs (Decidable (value? v = some (n : ℚ) ∧ n < 2 ^ 64))

lemma index?_eq_some {v : Float} {n : Nat} : index? v = some n ↔ IsIndex v n :=
  index?_eq_some_iff

/-- A double is at most one natural number. -/
lemma IsIndex.unique {v : Float} {n n' : Nat} (h : IsIndex v n) (h' : IsIndex v n') : n = n' := by
  have hvalue := h.1.symm.trans h'.1
  simpa using hvalue

lemma index?_eq_none {v : Float} : index? v = none ↔ ∀ n, ¬ IsIndex v n := by
  simp only [Option.eq_none_iff_forall_ne_some, ne_eq, index?_eq_some]

/-- A natural number is the code point of at most one character. -/
lemma scalar?_eq_some {n : Nat} {c : Char} : scalar? n = some c ↔ n = c.toNat := by
  unfold scalar?
  constructor
  · intro h
    by_cases hn : n.isValidChar
    · rw [dif_pos hn] at h
      cases h
      rfl
    · rw [dif_neg hn] at h
      cases h
  · rintro rfl
    have hc : c.toNat.isValidChar := c.valid
    rw [dif_pos hc]
    rfl

lemma char?_eq_some {v : Float} {c : Char} : char? v = some c ↔ IsChar v c := by
  simp only [char?, Option.bind_eq_some_iff, scalar?_eq_some, natural?_eq_some_iff, IsChar]
  constructor
  · rintro ⟨n, hn, rfl⟩
    exact hn
  · exact fun h => ⟨c.toNat, h, rfl⟩

lemma char?_eq_none {v : Float} : char? v = none ↔ ∀ c, ¬ IsChar v c := by
  simp only [Option.eq_none_iff_forall_ne_some, ne_eq, char?_eq_some]

lemma isZero_iff {v : Float} : isZero v = true ↔ value? v = some 0 := by
  unfold isZero value?
  cases read v with
  | finite negative units =>
      simp only [beq_iff_eq, Option.some.injEq]
      have hpos : (0 : ℚ) < 2 ^ places := by
        generalize places = p
        positivity
      rw [div_eq_zero_iff, or_iff_left hpos.ne']
      cases negative <;> simp [signed]
  | infinite negative => simp
  | undefined => simp

/-! ## Large values are even -/

/-- A finite double is a number of at most 53 bits, shifted to its place. -/
lemma exists_significand_of_read {v : Float} {negative : Bool} {units : Nat}
    (h : read v = .finite negative units) :
    ∃ q k, q < 2 ^ 53 ∧ k ≤ 2045 ∧ units = q * 2 ^ k := by
  have hfraction : (v.toBits &&& 0xFFFFFFFFFFFFF).toNat < 2 ^ 52 := by
    rw [UInt64.toNat_and]
    exact Nat.lt_succ_of_le Nat.and_le_right
  have hexponent : ((v.toBits >>> 52) &&& 0x7FF).toNat ≤ 2047 := by
    rw [UInt64.toNat_and]
    exact Nat.and_le_right
  simp only [read] at h
  generalize (v.toBits &&& 0xFFFFFFFFFFFFF).toNat = fraction at h hfraction
  generalize ((v.toBits >>> 52) &&& 0x7FF).toNat = exponent at h hexponent
  split_ifs at h
  · injection h with _ hunits
    exact ⟨fraction, 0, by omega, by omega, by omega⟩
  · injection h with _ hunits
    rw [Nat.shiftLeft_eq] at hunits
    exact ⟨(1 <<< 52) + fraction, _, by omega, by omega, hunits.symm⟩

/-- An odd number is not made larger by shifts that leave it whole. -/
lemma le_of_odd_of_mul_eq {n q p k : Nat} (hodd : n % 2 = 1) (h : n * 2 ^ p = q * 2 ^ k) :
    n ≤ q := by
  rcases Nat.le_total k p with hkp | hpk
  · obtain ⟨d, rfl⟩ := Nat.exists_eq_add_of_le hkp
    have hq : n * 2 ^ d = q := by
      refine Nat.eq_of_mul_eq_mul_right (Nat.two_pow_pos k) ?_
      rw [← h, Nat.pow_add, Nat.mul_assoc, Nat.mul_comm (2 ^ d)]
    rw [← hq]
    exact Nat.le_mul_of_pos_right n (Nat.two_pow_pos d)
  · obtain ⟨d, rfl⟩ := Nat.exists_eq_add_of_le hpk
    have hn : n = q * 2 ^ d := by
      refine Nat.eq_of_mul_eq_mul_right (Nat.two_pow_pos p) ?_
      rw [h, Nat.pow_add, Nat.mul_assoc, Nat.mul_comm (2 ^ d)]
    cases d with
    | zero => rw [hn, Nat.pow_zero, Nat.mul_one]
    | succ d =>
        rw [hn, Nat.pow_succ, ← Nat.mul_assoc, Nat.mul_mod_left] at hodd
        cases hodd

/-- An odd natural number that is the value of a double is small. -/
lemma lt_of_odd {v : Float} {n : Nat} (h : value? v = some (n : ℚ)) (hodd : n % 2 = 1) :
    n < 2 ^ 53 := by
  have hnatural := natural?_eq_some_iff.mpr h
  unfold natural? at hnatural
  cases hread : read v with
  | finite negative units =>
      obtain ⟨q, k, hq, -, hunits⟩ := exists_significand_of_read hread
      simp only [hread, Option.ite_none_right_eq_some, Option.some.injEq] at hnatural
      have hwhole : n * 2 ^ places = q * 2 ^ k := by
        rw [← hunits, ← hnatural.2, ← Nat.shiftLeft_eq]
        exact hnatural.1.1
      exact (le_of_odd_of_mul_eq hodd hwhole).trans_lt hq
  | infinite negative => simp [hread] at hnatural
  | undefined => simp [hread] at hnatural

/-- The largest number of 64 bits is odd and large, so it is no index. -/
lemma IsIndex.succ_lt {v : Float} {n : Nat} (h : IsIndex v n) : n + 1 < 2 ^ 64 := by
  have hbound := h.2
  have hne : n ≠ 2 ^ 64 - 1 := by
    rintro rfl
    exact absurd (lt_of_odd h.1 (by norm_num)) (by norm_num)
  omega

end Aquarium.Number
