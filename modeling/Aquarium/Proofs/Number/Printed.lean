import Aquarium.Proofs.Number.PlainText

/-!
# Printed numbers

What a program prints for a finite double is a plain decimal text that is rounded to the double
again, so that no two numbers share a text (`printed_numbers_read_back`).

Integers below `10 ^ 16` are printed by their digits, without a search for the shortest decimal.
This makes no difference (`integer_text_is_shortest_text`): doubles of this size are at most two
apart, and where they are two apart all of them are even.  An integer next to one of them is odd, so
it is no multiple of ten and saves no digits.
-/

namespace Aquarium.Number

/-! ## The two ways to print -/

lemma integerText_eq (n : ℤ) :
    integerText n = signText (decide (n < 0)) ++ String.ofList (digits n.natAbs) := by
  unfold integerText signText digitText
  by_cases h : n < 0 <;> simp [h]

lemma withSign_natAbs (n : ℤ) : withSign (decide (n < 0)) (n.natAbs : ℚ) = n := by
  have h := withSign_abs_self (n : ℚ)
  rwa [← Int.cast_abs, ← Nat.cast_natAbs, decide_eq_decide.mpr Int.cast_lt_zero] at h

variable {v w : Float} {a : ℚ} {n : ℤ}

lemma printed_of_integer (hv : value? v = some (n : ℚ)) (hlt : n.natAbs < integerLimit) :
    printed v = integerText n := by
  simp only [printed, integer?_eq_some_iff.mpr hv, hlt, if_true]

/-- A double is printed as an integer, or as its shortest decimal, and then it is not zero. -/
lemma printed_cases (hv : value? v = some a) :
    (∃ n : ℤ, a = n ∧ n.natAbs < integerLimit) ∨ a ≠ 0 ∧ printed v = positional v := by
  by_cases hinteger : ∃ n : ℤ, a = n ∧ n.natAbs < integerLimit
  · exact Or.inl hinteger
  · refine Or.inr ⟨fun hzero => hinteger ⟨0, by rw [hzero, Int.cast_zero], by decide⟩, ?_⟩
    unfold printed
    cases hread : integer? v with
    | none => rfl
    | some n =>
        rw [integer?_eq_some_iff, hv, Option.some.injEq] at hread
        exact if_neg fun hlt => hinteger ⟨n, hread, hlt⟩

/-- A double that is not zero has units. -/
lemma units_pos {negative : Bool} {u : Nat} (hread : read v = .finite negative u)
    (hv : value? v = some a) (hne : a ≠ 0) : 0 < u := by
  refine Nat.pos_of_ne_zero fun hzero => hne ?_
  rw [value?_of_read hread, hzero, Option.some.injEq] at hv
  rw [← hv]
  simp [withSign]

lemma positional_of_read {negative : Bool} {u : Nat} (hread : read v = .finite negative u)
    (hpos : 0 < u) :
    positional v = signText negative ++ String.ofList (shortest u).positional := by
  simp only [positional, hread, hpos.ne', if_false]

/-- **A printed number is a plain text that is rounded to the number.** -/
theorem exists_plain_printed (hv : value? v = some a) :
    ∃ p : Plain, printed v = p.text ∧ RoundsTo p.value v := by
  rcases printed_cases hv with ⟨n, rfl, hlt⟩ | ⟨hne, hprinted⟩
  · refine ⟨Plain.ofWhole (decide (n < 0)) (digits n.natAbs) (digits_ne_nil _)
      fun c => isDigit_of_mem_digits, ?_, ?_⟩
    · rw [printed_of_integer hv hlt, integerText_eq, Plain.text_ofWhole]
    · rw [Plain.value_ofWhole, ofDigits_digits, withSign_natAbs]
      exact roundsTo_self hv
  · obtain ⟨negative, u, hread, -⟩ := exists_read_of_value? hv
    have hpos := units_pos hread hv hne
    obtain ⟨p, htext, hvalue⟩ := Decimal.exists_plain
      ((isMagnitude_of_read hread).shortest_coefficient_mod hpos) negative
    refine ⟨p, ?_, ?_⟩
    · rw [hprinted, positional_of_read hread hpos, htext]
    · rw [hvalue]
      exact (shortest_isShortest hread hpos).rounds

/-- Two doubles of the same value that is not zero are read alike. -/
lemma read_eq_of_value?_eq {s t : Bool} {u k : Nat} (hv : read v = .finite s u)
    (hw : read w = .finite t k) (hpos : 0 < u) (h : value? v = value? w) : read v = read w := by
  obtain rfl := magnitude_eq_of_value?_eq hv hw h
  have hmagnitude : (0 : ℚ) < u / 2 ^ places := div_pos (by exact_mod_cast hpos) one_pos_units
  rw [value?_of_read hv, value?_of_read hw, Option.some.injEq] at h
  rw [hv, hw]
  generalize (u : ℚ) / 2 ^ places = q at *
  cases s <;> cases t <;> simp only [withSign, if_true, if_false, Bool.false_eq_true] at h ⊢ <;>
    linarith

/-- Doubles of the same value are printed alike. -/
lemma printed_eq_of_value?_eq (hv : value? v = some a) (hw : value? w = some a) :
    printed v = printed w := by
  rcases printed_cases hv with ⟨n, rfl, hlt⟩ | ⟨hne, hprinted⟩
  · rw [printed_of_integer hv hlt, printed_of_integer hw hlt]
  · obtain ⟨s, u, hreadv, -⟩ := exists_read_of_value? hv
    obtain ⟨t, k, hreadw, -⟩ := exists_read_of_value? hw
    have hread := read_eq_of_value?_eq hreadv hreadw (units_pos hreadv hv hne) (hv.trans hw.symm)
    simp only [printed, integer?, positional, hread]

/-- What is printed is read as a double of the same value. -/
lemma exists_float?_printed (hv : value? v = some a) :
    ∃ w, float? (printed v) = some w ∧ value? w = some a := by
  obtain ⟨p, htext, hrounds⟩ := exists_plain_printed hv
  obtain ⟨w, hw, hrounds'⟩ := p.exists_float?_text hrounds.1
  exact ⟨w, htext ▸ hw, hv ▸ hrounds'.unique hrounds⟩

/-- Printed numbers read back: a finite double is printed as a plain decimal text that is rounded to
the doubles of its value and to no others, reading the text gives such a double, and two finite
doubles have the same text exactly if they have the same value.  In particular both zeros are
printed as one digit. -/
theorem printed_numbers_read_back (hv : value? v = some a) :
    (∃ p : Plain, printed v = p.text ∧ ∀ w, RoundsTo p.value w ↔ value? w = some a) ∧
      (∃ w, float? (printed v) = some w ∧ value? w = some a) ∧
      (∀ w b, value? w = some b → (printed v = printed w ↔ a = b)) ∧
      (a = 0 → printed v = "0") := by
  refine ⟨?_, exists_float?_printed hv, fun w b hw => ⟨fun htext => ?_, ?_⟩, ?_⟩
  · obtain ⟨p, htext, hrounds⟩ := exists_plain_printed hv
    refine ⟨p, htext, fun w => ⟨fun h => (h.unique hrounds).trans hv, fun h => ?_⟩⟩
    exact hrounds.of_value?_eq (h.trans hv.symm)
  · obtain ⟨x, hx, hxa⟩ := exists_float?_printed hv
    obtain ⟨y, hy, hyb⟩ := exists_float?_printed hw
    rw [← htext, hx, Option.some.injEq] at hy
    rw [← hy, hxa, Option.some.injEq] at hyb
    exact hyb
  · rintro rfl
    exact printed_eq_of_value?_eq hv hw
  · rintro rfl
    rw [printed_of_integer (n := 0) (by rw [hv, Int.cast_zero]) (by decide)]
    decide

/-- The smallest positive double is printed as a text that is read as this double again, and that it
does not share with negative zero. -/
theorem printed_numbers_read_back_smallest :
    value? (ofUnits false 1) = some (1 / 2 ^ places) ∧
      (∃ w, float? (printed (ofUnits false 1)) = some w ∧ value? w = some (1 / 2 ^ places)) ∧
      printed (ofUnits false 1) ≠ printed (ofUnits true 0) := by
  have hone : IsMagnitude 1 := ⟨1, 0, by norm_num, by norm_num, rfl⟩
  have hvalue : value? (ofUnits false 1) = some (1 / 2 ^ places) := by
    rw [value?_of_read (hone.read_ofUnits false), Nat.cast_one]
    rfl
  have hzero : value? (ofUnits true 0) = some 0 := by
    rw [value?_of_read (isMagnitude_zero.read_ofUnits true)]
    simp [withSign]
  obtain ⟨-, hreads, hsame, -⟩ := printed_numbers_read_back hvalue
  refine ⟨hvalue, hreads, fun htext => ?_⟩
  exact (div_pos one_pos one_pos_units).ne' ((hsame _ 0 hzero).mp htext)

/-! ## Integers -/

/-- A double cut to an integer of 64 bits: the fraction is dropped, and what is out of range is
taken to the nearest end of it. -/
def toInt64 (v : Float) : ℤ :=
  match read v with
  | .undefined => 0
  | .infinite negative => if negative then -2 ^ 63 else 2 ^ 63 - 1
  | .finite negative units => max (-2 ^ 63) (min (signed negative (units >>> places)) (2 ^ 63 - 1))

/-- An integer of 64 bits is cut to itself. -/
lemma toInt64_of_integer (hv : value? v = some (n : ℚ)) (hlow : -2 ^ 63 ≤ n) (hhigh : n < 2 ^ 63) :
    toInt64 v = n := by
  obtain ⟨negative, u, hread, -⟩ := exists_read_of_value? hv
  have hinteger := integer?_eq_some_iff.mpr hv
  simp only [integer?, hread, Option.ite_none_right_eq_some, Option.some.injEq] at hinteger
  have hsigned : signed negative (u >>> places) = n := hinteger.2
  simp only [toInt64, hread, hsigned]
  omega

section Integers

variable {u m : Nat} (hu : IsMagnitude u) (hwhole : u = m * 2 ^ places)
include hu hwhole

omit hu in
/-- Below `2 ^ 54` doubles are at most two apart. -/
lemma spareBits_le_of_lt (hlt : m < 2 ^ 54) : spareBits u ≤ places + 1 := by
  refine shift_le (spareBits_spec u).2 ?_
  generalize places = p at *
  calc u = m * 2 ^ p := hwhole
    _ < 2 ^ 54 * 2 ^ p := Nat.mul_lt_mul_of_pos_right hlt (Nat.two_pow_pos p)
    _ = 2 ^ 53 * 2 ^ (p + 1) := by ring

/-- Even numbers and integral doubles below `2 ^ 54` lie on a common grid of at least the distance
of the doubles. -/
lemma exists_common_step {k : Nat} (hlt : m < 2 ^ 54) (heven : 2 ∣ k) :
    ∃ step, 2 ^ spareBits u ≤ step ∧ step ∣ k * 2 ^ places ∧ step ∣ u := by
  rcases (spareBits_le_of_lt hwhole hlt).lt_or_eq with h | h
  · exact ⟨2 ^ places, Nat.pow_le_pow_right Nat.two_pos (Nat.le_of_lt_succ h), dvd_mul_left _ _,
      hwhole ▸ dvd_mul_left _ _⟩
  · refine ⟨2 ^ spareBits u, le_rfl, ?_, hu.two_pow_dvd⟩
    rw [h, pow_succ, Nat.mul_comm]
    exact Nat.mul_dvd_mul heven dvd_rfl

/-- An even number in the rounding interval of an integer below `2 ^ 54` is the integer. -/
lemma eq_of_mem_of_even {k : Nat} (hlt : m < 2 ^ 54) (heven : 2 ∣ k)
    (hmem : (Span.ofUnits u).Mem (k * gridStep 0)) : k = m := by
  obtain ⟨step, hstep, hk, hdvd⟩ := exists_common_step hu hwhole hlt heven
  have hpoint : (k : ℚ) * gridStep 0 = (4 * (k * 2 ^ places) : Nat) := by
    rw [gridStep, zpow_zero]
    push_cast
    ring
  rw [hpoint] at hmem
  have hlow : (Span.ofUnits u).low ≤ 4 * (k * 2 ^ places) := by exact_mod_cast hmem.le.1
  have hhigh : 4 * (k * 2 ^ places) ≤ (Span.ofUnits u).high := by exact_mod_cast hmem.le.2
  have hbelow := le_span_low_add u
  have hpos := Nat.two_pow_pos (spareBits u)
  rw [span_high] at hhigh
  -- the interval is narrower than the common grid
  have hunits : k * 2 ^ places = u := by
    rcases lt_trichotomy (k * 2 ^ places) u with h | h | h
    · have := add_step_le hk hdvd h
      omega
    · exact h
    · have := add_step_le hdvd hk h
      omega
  exact Nat.eq_of_mul_eq_mul_right (Nat.two_pow_pos places) (hunits.trans hwhole)

/-- **The shortest decimal of an integer below `10 ^ 16` is exact.** -/
theorem shortest_value_of_integer (hpos : 0 < m) (hlt : m < integerLimit) :
    (shortest u).value = m := by
  have hlt' : m < 2 ^ 54 := hlt.trans (by decide)
  have hupos : 0 < u := hwhole ▸ Nat.mul_pos hpos (Nat.two_pow_pos places)
  have hmiddle : (m : ℚ) * gridStep 0 = (Span.ofUnits u).middle := by
    rw [span_middle, hwhole, gridStep, zpow_zero]
    push_cast
    ring
  have hmem : (Span.ofUnits u).Mem (m * gridStep 0) := hmiddle ▸ hu.middle_mem hupos
  obtain ⟨⟨hfound, hnear⟩, hnone⟩ := hu.shortest_spec hupos
  generalize shortest u = d at *
  obtain ⟨e, he⟩ : ∃ e : Nat, d.exponent = e := by
    refine Int.eq_ofNat_of_zero_le (le_of_not_gt fun hneg => ?_)
    exact hnone 0 hneg m hmem
  cases e with
  | zero =>
      -- the integer is a point of this grid, and no other point is as near
      rw [Nat.cast_zero] at he
      have hle := hnear m (he ▸ hmem)
      rw [he, hmiddle, sub_self, abs_zero, abs_nonpos_iff, sub_eq_zero, ← hmiddle,
        Decimal.quarters_eq_value_mul, mul_left_inj' (gridStep_pos 0).ne'] at hle
      exact hle
  | succ e =>
      have hvalue : d.value = (d.coefficient * 10 ^ (e + 1) : Nat) := by
        rw [Decimal.value, he, zpow_natCast]
        push_cast
        rfl
      rw [Decimal.quarters_eq_value_mul, hvalue] at hfound
      rw [hvalue, Nat.cast_inj]
      refine eq_of_mem_of_even hu hwhole hlt' ?_ hfound
      exact Dvd.dvd.mul_left (Dvd.dvd.pow (by norm_num) e.succ_ne_zero) _

end Integers

/-- A decimal of an integral value is written as the digits of the integer. -/
lemma Decimal.positional_of_value {d : Decimal} {m : Nat} (hend : d.coefficient % 10 ≠ 0)
    (hvalue : d.value = m) : d.positional = digits m := by
  have hexponent : 0 ≤ d.exponent := by
    by_contra hneg
    obtain ⟨e, he⟩ : ∃ e : Nat, d.exponent = -((e + 1 : Nat) : ℤ) :=
      ⟨(-d.exponent).toNat - 1, by omega⟩
    rw [value, he, zpow_neg, zpow_natCast, ← div_eq_mul_inv, div_eq_iff (by positivity)] at hvalue
    have hten : d.coefficient = m * 10 ^ (e + 1) := by exact_mod_cast hvalue
    rw [hten, pow_succ, ← Nat.mul_assoc, Nat.mul_mod_left] at hend
    exact hend rfl
  obtain ⟨e, he⟩ := Int.eq_ofNat_of_zero_le hexponent
  have hm : m = d.coefficient * 10 ^ e := by
    rw [value, he, zpow_natCast] at hvalue
    exact_mod_cast hvalue.symm
  have hpos : 0 < d.coefficient := Nat.pos_of_ne_zero fun h => hend (by rw [h])
  rw [positional, if_pos hexponent, hm, digits_mul_pow hpos, he, Int.toNat_natCast]

/-- The reading of a double with an integral value other than zero. -/
lemma exists_read_of_integer (hv : value? v = some (n : ℚ)) (hn : n ≠ 0) :
    ∃ u, read v = .finite (decide (n < 0)) u ∧ 0 < u ∧ u = n.natAbs * 2 ^ places := by
  obtain ⟨negative, u, hread, hvalue⟩ := exists_read_of_value? hv
  have hone := one_pos_units
  have hunits : u = n.natAbs * 2 ^ places := by
    have habs := congrArg abs hvalue
    rw [withSign_abs, abs_of_nonneg (div_nonneg (Nat.cast_nonneg u) hone.le), ← Int.cast_abs,
      ← Nat.cast_natAbs, eq_div_iff hone.ne'] at habs
    exact_mod_cast habs.symm
  have hmagnitude : (u : ℚ) / 2 ^ places = n.natAbs := by
    rw [div_eq_iff hone.ne', hunits]
    push_cast
    rfl
  have hsign : negative = decide (n < 0) := by
    rw [hmagnitude] at hvalue
    have hpos : (0 : ℚ) < n.natAbs := by exact_mod_cast Int.natAbs_pos.mpr hn
    cases negative with
    | false =>
        have hnonneg : (0 : ℚ) ≤ n := by
          rw [hvalue]
          exact hpos.le
        exact (decide_eq_false (by exact_mod_cast hnonneg.not_gt)).symm
    | true =>
        have hneg : (n : ℚ) < 0 := by
          rw [hvalue]
          exact neg_neg_of_pos hpos
        exact (decide_eq_true (by exact_mod_cast hneg)).symm
  exact ⟨u, hsign ▸ hread, hunits ▸ Nat.mul_pos (Int.natAbs_pos.mpr hn) (Nat.two_pow_pos places),
    hunits⟩

/-- Zero without a sign is written as a digit. -/
lemma positional_of_zero (hv : value? v = some 0) (hzero : read v ≠ .finite true 0) :
    positional v = "0" := by
  obtain ⟨negative, u, hread, hvalue⟩ := exists_read_of_value? hv
  have hunits : u = 0 := by
    have habs := congrArg abs hvalue
    rw [withSign_abs, abs_zero, eq_comm, abs_eq_zero, div_eq_zero_iff] at habs
    exact_mod_cast habs.resolve_right one_pos_units.ne'
  subst hunits
  cases negative with
  | true => exact absurd hread hzero
  | false => simp [positional, hread, signText]

/-- Every shortest decimal of an integer below `10 ^ 16` is written as the integer is. -/
lemma IsShortest.text_eq_integerText (hv : value? v = some (n : ℚ)) (hn : n ≠ 0)
    (hlt : n.natAbs < integerLimit) {d : Decimal} (hd : IsShortest (decide (n < 0)) d v) :
    signText (decide (n < 0)) ++ String.ofList d.positional = integerText n := by
  obtain ⟨u, hread, hpos, hunits⟩ := exists_read_of_integer hv hn
  have hexact := shortest_value_of_integer (isMagnitude_of_read hread) hunits
    (Int.natAbs_pos.mpr hn) hlt
  have hvalue : value? v = some (withSign (decide (n < 0)) (shortest u).value) := by
    rw [hexact, withSign_natAbs, hv]
  have hdvalue := ((shortest_isShortest hread hpos).value_eq hvalue hd).trans hexact
  rw [Decimal.positional_of_value (hd.coefficient_mod hread hpos) hdvalue, integerText_eq]

/-- Printing an integer below `10 ^ 16` by its digits agrees with the general way: cutting the
double to 64 bits gives the integer, and its text is the one found by searching for the shortest
decimal, and the one of every decimal that is shortest and nearest.  Only negative zero is left
out, which has a sign in the general way. -/
theorem integer_text_is_shortest_text (hv : value? v = some (n : ℚ)) (hlt : n.natAbs < 10 ^ 16)
    (hzero : read v ≠ .finite true 0) :
    toInt64 v = n ∧ printed v = integerText (toInt64 v) ∧ positional v = integerText (toInt64 v) ∧
      (n ≠ 0 → (∃ d, IsShortest (decide (n < 0)) d v) ∧
        ∀ d, IsShortest (decide (n < 0)) d v →
          signText (decide (n < 0)) ++ String.ofList d.positional = integerText (toInt64 v)) := by
  have hcut : toInt64 v = n := toInt64_of_integer hv (by omega) (by omega)
  rw [hcut]
  refine ⟨rfl, printed_of_integer hv hlt, ?_, fun hn => ⟨?_, fun d => ?_⟩⟩
  · rcases eq_or_ne n 0 with rfl | hn
    · exact (positional_of_zero (by exact_mod_cast hv) hzero).trans (by decide)
    · obtain ⟨u, hread, hpos, -⟩ := exists_read_of_integer hv hn
      rw [positional_of_read hread hpos]
      exact (shortest_isShortest hread hpos).text_eq_integerText hv hn hlt
  · obtain ⟨u, hread, hpos, -⟩ := exists_read_of_integer hv hn
    exact ⟨_, shortest_isShortest hread hpos⟩
  · exact IsShortest.text_eq_integerText hv hn hlt

/-- The last double before `10 ^ 16`, where doubles are two apart, below zero. -/
theorem integer_text_is_shortest_text_before_limit :
    value? (ofInt (-9999999999999998)) = some ((-9999999999999998 : ℤ) : ℚ) ∧
      positional (ofInt (-9999999999999998)) = "-9999999999999998" := by
  have hmagnitude : IsMagnitude (9999999999999998 * 2 ^ places) := by
    refine ⟨4999999999999999, places + 1, by norm_num, by decide, ?_⟩
    generalize places = p
    ring
  have hread : read (ofInt (-9999999999999998)) = .finite true (9999999999999998 * 2 ^ places) := by
    rw [← hmagnitude.read_ofUnits true, ← Nat.shiftLeft_eq]
    rfl
  have hvalue : value? (ofInt (-9999999999999998)) = some ((-9999999999999998 : ℤ) : ℚ) := by
    rw [value?_of_read hread, Nat.cast_mul, Nat.cast_pow, Nat.cast_ofNat, Nat.cast_ofNat,
      mul_div_cancel_right₀ _ one_pos_units.ne']
    norm_num [withSign]
  have hsigned : read (ofInt (-9999999999999998)) ≠ .finite true 0 := by
    have hone := Nat.two_pow_pos places
    rw [hread, Ne, Reading.finite.injEq, not_and]
    generalize 2 ^ places = one at hone
    omega
  obtain ⟨hcut, -, htext, -⟩ := integer_text_is_shortest_text hvalue (by decide) hsigned
  rw [hcut] at htext
  exact ⟨hvalue, htext.trans (by decide)⟩

end Aquarium.Number
