import Aquarium.Number.FromText
import Aquarium.Proofs.Number.Rounding
import Aquarium.Proofs.Number.Shortest

/-!
# Plain decimal texts

`Plain` is a number written out without an exponent: a sign, digits, and perhaps a point with more
digits, the last of which is not a zero.  It has an exact value, `Plain.value`.

Such a text is read as the double nearest to its value (`Plain.exists_float?_text`), however many
digits it has.  A decimal written positionally is such a text and keeps its value
(`Decimal.exists_plain`).
-/

namespace Aquarium.Number

/-- A number written out in decimal digits. -/
structure Plain where
  negative : Bool
  whole : List Char
  fraction : List Char
  whole_ne_nil : whole ≠ []
  whole_digits : ∀ c ∈ whole, isDigit c = true
  fraction_digits : ∀ c ∈ fraction, isDigit c = true
  fraction_end : fraction.getLast? ≠ some '0'

namespace Plain

/-- The digits, and the point if there are digits after it. -/
def magnitudeText (p : Plain) : List Char :=
  p.whole ++ if p.fraction = [] then [] else '.' :: p.fraction

/-- The text itself. -/
def text (p : Plain) : String := signText p.negative ++ String.ofList p.magnitudeText

/-- The exact number that is written. -/
def value (p : Plain) : ℚ :=
  withSign p.negative (ofDigits p.whole + ofDigits p.fraction / 10 ^ p.fraction.length)

/-- The same number as a decimal: all the digits, scaled by those after the point. -/
def decimal (p : Plain) : Decimal := ⟨ofDigits (p.whole ++ p.fraction), -(p.fraction.length : ℤ)⟩

end Plain

/-! ## Digits -/

lemma isDigit_of_mem_digits {n : Nat} {c : Char} (h : c ∈ digits n) : isDigit c = true :=
  Nat.isDigit_of_mem_toDigits (by norm_num) (by norm_num) h

@[simp] lemma ofDigits_digits (n : Nat) : ofDigits (digits n) = n := Nat.ofDigitChars_ten_toDigits

lemma ofDigits_append (l m : List Char) :
    ofDigits (l ++ m) = 10 ^ m.length * ofDigits l + ofDigits m :=
  (Nat.ofDigitChars_append 0).trans Nat.ofDigitChars_eq_ofDigitChars_zero

@[simp] lemma ofDigits_zeros (n : Nat) : ofDigits (zeros n) = 0 :=
  Nat.ofDigitChars_replicate_zero.trans (Nat.mul_zero _)

lemma length_zeros (n : Nat) : (zeros n).length = n := List.length_replicate

lemma digits_ne_nil (n : Nat) : digits n ≠ [] := Nat.toDigits_ne_nil

/-- The last digit of a number is its rest by ten. -/
lemma getLast?_digits (n : Nat) : (digits n).getLast? = some (n % 10).digitChar := by
  rw [digits, Nat.toDigits_eq_if (by norm_num)]
  split_ifs with h
  · rw [List.getLast?_singleton, Nat.mod_eq_of_lt h]
  · rw [List.getLast?_concat]

/-- A factor of ten is a zero at the end. -/
lemma digits_mul_pow {n : Nat} (hn : 0 < n) (k : Nat) :
    digits (n * 10 ^ k) = digits n ++ zeros k := by
  induction k with
  | zero => rw [pow_zero, Nat.mul_one, zeros, List.replicate_zero, List.append_nil]
  | succ k ih =>
      have hpos : 0 < n * 10 ^ k := by positivity
      have hlast := Nat.toDigits_append_toDigits (b := 10) (by norm_num) hpos (d := 0) (by norm_num)
      rw [zeros, List.replicate_succ', ← List.append_assoc, ← zeros, ← ih, pow_succ,
        ← Nat.mul_assoc, Nat.mul_comm _ 10]
      exact hlast.symm

lemma isDigit_of_mem_zeros {n : Nat} {c : Char} (h : c ∈ zeros n) : isDigit c = true := by
  rw [List.eq_of_mem_replicate h]
  rfl

/-! ## Reading a plain text -/

namespace Plain

variable (p : Plain)

lemma value_eq : p.value = withSign p.negative p.decimal.value := by
  have hten : (0 : ℚ) < 10 ^ p.fraction.length := by positivity
  rw [value, decimal, Decimal.value, ofDigits_append, withSign_inj, zpow_neg, zpow_natCast]
  push_cast
  field_simp

/-- The text begins with a digit after its sign. -/
lemma exists_cons_magnitudeText : ∃ c cs, p.magnitudeText = c :: cs ∧ isDigit c = true := by
  obtain ⟨c, cs, hwhole⟩ := List.exists_cons_of_ne_nil p.whole_ne_nil
  have hc : c ∈ p.whole := hwhole ▸ List.mem_cons_self
  rw [magnitudeText, hwhole, List.cons_append]
  exact ⟨c, _, rfl, p.whole_digits c hc⟩

lemma splitSign_text : splitSign p.text.toList = (p.negative, p.magnitudeText) := by
  obtain ⟨c, cs, hcs, hc⟩ := p.exists_cons_magnitudeText
  rw [text, String.toList_append, String.toList_ofList, hcs]
  cases p.negative with
  | true => rfl
  | false =>
      have hminus : c ≠ '-' := by rintro rfl; exact absurd hc (by decide)
      have hplus : c ≠ '+' := by rintro rfl; exact absurd hc (by decide)
      simp [signText, splitSign, hminus, hplus]

/-- No name of an infinity or of no number begins with a digit. -/
lemma toLower_ne {name : String} {c d : Char} {cs ds : List Char} (hname : name.toList = d :: ds)
    (hd : ¬ isDigit d = true) (hc : isDigit c = true) :
    String.ofList ((c :: cs).map Char.toLower) ≠ name := by
  rintro rfl
  rw [String.toList_ofList, List.map_cons, List.cons.injEq] at hname
  have hlower : c.toLower = c := by
    rw [isDigit, Bool.and_eq_true, decide_eq_true_eq, decide_eq_true_eq] at hc
    refine dif_neg fun hupper => ?_
    exact absurd (UInt32.le_trans hupper.1 (Char.le_def.mp hc.2)) (by decide)
  rw [hlower] at hname
  exact hd (hname.1 ▸ hc)

/-- Digits are read up to the first character that is none. -/
lemma span_isDigit_append {ds rest : List Char} (hds : ∀ c ∈ ds, isDigit c = true)
    (hrest : ∀ c ∈ rest.head?, isDigit c = false) : (ds ++ rest).span isDigit = (ds, rest) := by
  rw [List.span_eq_takeWhile_dropWhile, List.takeWhile_append_of_pos hds,
    List.dropWhile_append_of_pos hds]
  cases rest with
  | nil => rw [List.takeWhile_nil, List.dropWhile_nil, List.append_nil]
  | cons c cs =>
      have hc : ¬ isDigit c = true := by simp [hrest c rfl]
      rw [List.takeWhile_cons_of_neg hc, List.dropWhile_cons_of_neg hc, List.append_nil]

lemma magnitude?_magnitudeText :
    magnitude? p.negative p.magnitudeText =
      some (ofDecimal p.negative p.decimal.coefficient p.decimal.exponent) := by
  have hexponent : (0 : ℤ) - p.fraction.length = p.decimal.exponent := zero_sub _
  unfold magnitude? magnitudeText
  split_ifs with hnil
  · rw [span_isDigit_append p.whole_digits (by simp)]
    simp only [p.whole_ne_nil, false_and, if_false, exponent?, Option.map_some, decimal, hnil,
      List.length_nil, Nat.cast_zero, sub_zero, neg_zero]
  · have hfraction : (p.fraction ++ []).span isDigit = (p.fraction, []) :=
      span_isDigit_append p.fraction_digits (by simp)
    rw [List.append_nil] at hfraction
    rw [span_isDigit_append p.whole_digits (by simp; decide)]
    simp only [hfraction, p.whole_ne_nil, false_and, if_false, exponent?, Option.map_some,
      hexponent]
    rfl

lemma float?_text :
    float? p.text = some (ofDecimal p.negative p.decimal.coefficient p.decimal.exponent) := by
  obtain ⟨c, cs, hcs, hc⟩ := p.exists_cons_magnitudeText
  have hname : ∀ {name : String} {d : Char} {ds : List Char}, name.toList = d :: ds →
      ¬ isDigit d = true → String.ofList (p.magnitudeText.map Char.toLower) ≠ name := by
    intro name d ds hlist hd
    rw [hcs]
    exact toLower_ne hlist hd hc
  simp only [float?, splitSign_text]
  rw [if_neg (not_or.mpr ⟨hname rfl (by decide), hname rfl (by decide)⟩),
    if_neg (hname rfl (by decide)), magnitude?_magnitudeText]

end Plain

/-! ## Rounding what is read -/

/-- Three bits are less than a digit. -/
lemma two_pow_le_ten_pow {m n : Nat} (h : m ≤ 3 * n) : 2 ^ m ≤ 10 ^ n :=
  calc 2 ^ m ≤ 2 ^ (3 * n) := Nat.pow_le_pow_right Nat.two_pos h
    _ = 8 ^ n := Nat.pow_mul 2 3 n
    _ ≤ 10 ^ n := Nat.pow_le_pow_left (by norm_num) n

namespace Decimal

variable {d : Decimal}

/-- What is smaller than half a unit is rounded to zero. -/
lemma roundsTo_zero (negative : Bool) (h : d.exponent + d.length < -400) :
    RoundsTo (withSign negative d.value) (ofUnits negative 0) := by
  obtain ⟨n, hn⟩ : ∃ n, n = 401 := ⟨_, rfl⟩
  have hpow : 2 ^ (places + 1) ≤ 10 ^ n := two_pow_le_ten_pow (by rw [hn]; decide)
  rw [pow_succ] at hpow
  have hpowq : (2 : ℚ) ^ places * 2 ≤ 10 ^ n := by exact_mod_cast hpow
  have hsmall : d.value ≤ (10 ^ n)⁻¹ := by
    rw [← zpow_natCast, ← zpow_neg]
    exact d.value_lt_pow.le.trans (zpow_le_zpow_right₀ (by norm_num) (by omega))
  have hquarters : d.quarters ≤ 2 := by
    have hone := one_pos_units
    have hten : (0 : ℚ) < 10 ^ n := by positivity
    rw [quarters]
    generalize (2 : ℚ) ^ places = one at *
    calc 4 * (d.value * one) ≤ 4 * ((10 ^ n)⁻¹ * one) := by gcongr
      _ = 2 * ((one * 2) / 10 ^ n) := by ring
      _ ≤ 2 * 1 := by gcongr; exact (div_le_one hten).mpr hpowq
      _ = 2 := mul_one 2
  have hzero : 0 ≤ d.quarters :=
    mul_nonneg (by norm_num) (mul_nonneg d.value_nonneg one_pos_units.le)
  rw [roundsTo_decimal_iff (isMagnitude_zero.read_ofUnits negative)]
  have hlow : (Span.ofUnits 0).low = 0 := by decide
  have hhigh : (Span.ofUnits 0).high = 2 := by decide
  have hclosed : (Span.ofUnits 0).closed = true := by decide
  rw [Span.Mem, if_pos hclosed, hlow, hhigh]
  exact_mod_cast And.intro hzero hquarters

/-- What is in the range of doubles has its point not far to the right. -/
lemma exponent_le (hpos : 0 < d.coefficient) (hbound : d.value < overflowBound) :
    d.exponent + d.length ≤ 400 := by
  by_contra hfar
  obtain ⟨n, hn⟩ : ∃ n, n = 400 := ⟨_, rfl⟩
  have hlarge : (10 : ℚ) ^ n ≤ d.value := by
    rw [← zpow_natCast]
    exact (zpow_le_zpow_right₀ (by norm_num) (by omega)).trans (pow_le_value hpos)
  have hlimit : overflowBound ≤ 10 ^ n := by
    obtain ⟨k, hk⟩ : ∃ k, k = 1024 := ⟨_, rfl⟩
    obtain ⟨j, hj⟩ : ∃ j, j = 970 := ⟨_, rfl⟩
    have hpow : 2 ^ k ≤ 10 ^ n := two_pow_le_ten_pow (by omega)
    rw [overflowBound, ← hk, ← hj]
    have hpowq : (2 : ℚ) ^ k ≤ 10 ^ n := by exact_mod_cast hpow
    have hj : (0 : ℚ) ≤ 2 ^ j := by positivity
    linarith
  linarith

/-- **A decimal in the range of doubles is read as the nearest double.** -/
theorem roundsTo_ofDecimal (negative : Bool) (hbound : d.value < overflowBound) :
    RoundsTo (withSign negative d.value) (ofDecimal negative d.coefficient d.exponent) := by
  unfold ofDecimal
  have hone := one_pos_units
  have hlength : ((Nat.toDigits 10 d.coefficient).length : ℤ) = d.length := rfl
  simp only [hlength, Nat.pow_eq, Nat.shiftLeft_eq]
  split_ifs with hsmall hlarge hwhole
  · rcases hsmall with hzero | hfar
    · have hvalue : d.value = 0 := by rw [value, hzero, Nat.cast_zero, zero_mul]
      have hself := roundsTo_self (value?_of_read (isMagnitude_zero.read_ofUnits negative))
      rwa [Nat.cast_zero, zero_div, ← hvalue] at hself
    · exact roundsTo_zero negative hfar
  · rw [not_or] at hsmall
    have hle := exponent_le (Nat.pos_of_ne_zero hsmall.1) hbound
    omega
  · obtain ⟨n, hn⟩ := Int.eq_ofNat_of_zero_le hwhole
    have hratio : ((d.coefficient * 10 ^ d.exponent.toNat * 2 ^ places : Nat) : ℚ) / (1 : Nat) /
        2 ^ places = d.value := by
      rw [value, hn, Int.toNat_natCast, zpow_natCast, Nat.cast_one, div_one, Nat.cast_mul,
        Nat.cast_pow, Nat.cast_ofNat, mul_div_cancel_right₀ _ hone.ne']
      push_cast
      rfl
    rw [← hratio] at hbound ⊢
    exact roundsTo_ofRatio _ Nat.one_pos negative hbound
  · obtain ⟨n, hn⟩ : ∃ n : Nat, d.exponent = -(n : ℤ) := ⟨(-d.exponent).toNat, by omega⟩
    have hratio : ((d.coefficient * 2 ^ places : Nat) : ℚ) / (10 ^ (-d.exponent).toNat : Nat) /
        2 ^ places = d.value := by
      rw [value, hn, neg_neg, Int.toNat_natCast, zpow_neg, zpow_natCast, Nat.cast_mul, Nat.cast_pow,
        Nat.cast_ofNat, div_right_comm, mul_div_cancel_right₀ _ hone.ne', div_eq_mul_inv]
      push_cast
      rfl
    rw [← hratio] at hbound ⊢
    exact roundsTo_ofRatio _ (Nat.pow_pos (by norm_num)) negative hbound

end Decimal

/-- **A plain text in the range of doubles is read as the double nearest to its value.** -/
theorem Plain.exists_float?_text (p : Plain) (hbound : |p.value| < overflowBound) :
    ∃ v, float? p.text = some v ∧ RoundsTo p.value v := by
  rw [p.value_eq, withSign_abs, abs_of_nonneg p.decimal.value_nonneg] at hbound
  exact ⟨_, p.float?_text, p.value_eq ▸ Decimal.roundsTo_ofDecimal p.negative hbound⟩

/-! ## Positional texts -/

section OfWhole

variable (negative : Bool) (ds : List Char) (hne : ds ≠ []) (hds : ∀ c ∈ ds, isDigit c = true)

/-- A text without a point. -/
def Plain.ofWhole : Plain where
  negative := negative
  whole := ds
  fraction := []
  whole_ne_nil := hne
  whole_digits := hds
  fraction_digits := by simp
  fraction_end := by simp

@[simp] lemma Plain.text_ofWhole :
    (ofWhole negative ds hne hds).text = signText negative ++ String.ofList ds := by
  rw [text, magnitudeText, ofWhole, if_pos rfl, List.append_nil]

@[simp] lemma Plain.value_ofWhole :
    (ofWhole negative ds hne hds).value = withSign negative (ofDigits ds) := by
  simp [value, ofWhole, ofDigits]

end OfWhole

/-- Digits with a point among them are a plain text of the decimal that has these digits and as many
places after the point. -/
lemma Decimal.exists_plain_of_parts {d : Decimal} (negative : Bool) {whole fraction : List Char}
    (hwhole : whole ≠ []) (hfraction : fraction ≠ [])
    (hds : ∀ c ∈ whole ++ fraction, isDigit c = true) (hend : fraction.getLast? ≠ some '0')
    (hcoefficient : ofDigits (whole ++ fraction) = d.coefficient)
    (hplaces : (fraction.length : ℤ) = -d.exponent) :
    ∃ p : Plain, p.text = signText negative ++ String.ofList (whole ++ '.' :: fraction) ∧
      p.value = withSign negative d.value := by
  refine ⟨⟨negative, whole, fraction, hwhole, fun c hc => hds c (List.mem_append_left _ hc),
    fun c hc => hds c (List.mem_append_right _ hc), hend⟩, ?_, ?_⟩
  · rw [Plain.text, Plain.magnitudeText, if_neg hfraction]
  · rw [Plain.value_eq, Plain.decimal, hcoefficient, hplaces, neg_neg]

/-- A decimal that does not end in zero ends in another digit. -/
lemma getLast?_digits_ne {n : Nat} (h : n % 10 ≠ 0) : (digits n).getLast? ≠ some '0' := by
  rw [getLast?_digits, Ne, Option.some.injEq, Nat.digitChar_eq_zero]
  exact h

/-- **A decimal without a zero at its end is written as a plain text of the same value.** -/
theorem Decimal.exists_plain {d : Decimal} (hend : d.coefficient % 10 ≠ 0) (negative : Bool) :
    ∃ p : Plain, p.text = signText negative ++ String.ofList d.positional ∧
      p.value = withSign negative d.value := by
  have hdigits : ∀ c ∈ digits d.coefficient, isDigit c = true := fun c => isDigit_of_mem_digits
  have hlast := getLast?_digits_ne hend
  simp only [positional]
  split_ifs with hwhole hinside
  · -- a whole number, with zeros up to the point
    obtain ⟨n, hn⟩ := Int.eq_ofNat_of_zero_le hwhole
    refine ⟨Plain.ofWhole negative (digits d.coefficient ++ zeros d.exponent.toNat)
      (List.append_ne_nil_of_left_ne_nil (digits_ne_nil _) _)
      fun c hc => (List.mem_append.mp hc).elim (hdigits c) isDigit_of_mem_zeros, ?_, ?_⟩
    · rw [Plain.text_ofWhole]
    · rw [Plain.value_ofWhole, withSign_inj, ofDigits_append, ofDigits_digits, ofDigits_zeros,
        length_zeros, value, hn, zpow_natCast, Int.toNat_natCast]
      push_cast
      ring
  · -- the point stands among the digits
    have hsplit := List.take_append_drop
      ((digits d.coefficient).length - (-d.exponent).toNat) (digits d.coefficient)
    refine exists_plain_of_parts negative ?_ ?_ (hsplit.symm ▸ hdigits) ?_ ?_ ?_
    · rw [Ne, List.take_eq_nil_iff, not_or]
      exact ⟨by omega, digits_ne_nil _⟩
    · rw [Ne, List.drop_eq_nil_iff]
      omega
    · rw [List.getLast?_drop, if_neg (by omega)]
      exact hlast
    · rw [hsplit, ofDigits_digits]
    · rw [List.length_drop]
      omega
  · -- the point stands before the digits, with zeros between
    rw [← List.singleton_append]
    refine exists_plain_of_parts negative (List.cons_ne_nil '0' [])
      (List.append_ne_nil_of_right_ne_nil _ (digits_ne_nil _)) (fun c hc => ?_) ?_ ?_ ?_
    · rcases List.mem_append.mp hc with h | h
      · exact List.mem_singleton.mp h ▸ rfl
      · exact (List.mem_append.mp h).elim isDigit_of_mem_zeros (hdigits c)
    · rw [List.getLast?_append_of_ne_nil _ (digits_ne_nil _)]
      exact hlast
    · rw [ofDigits_append, ofDigits_append, ofDigits_zeros, ofDigits_digits]
      simp [ofDigits, digitValue]
    · rw [List.length_append, length_zeros]
      omega

end Aquarium.Number
