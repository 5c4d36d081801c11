import Aquarium.Proofs.Number.Magnitude

/-!
# Rounding to the nearest double

`RoundsTo q v` says that the rational number `q` is rounded to the double `v`: no double is nearer
to `q`, and if another one is as near then `v` is even.  Numbers from `overflowBound` on are rounded
to no finite double.

The sign plays no part in this, so rounding is a question about magnitudes: `Nearest x u` is the
same relation between a number of units and a magnitude (`roundsTo_iff`).  The numbers that are
rounded to a magnitude make up its rounding interval (`nearest_iff_mem`), and so a number is rounded
to one double only, up to the sign of zero (`RoundsTo.unique`).
-/

namespace Aquarium.Number

/-- Half a step above the largest finite double. -/
def overflowBound : ℚ := 2 ^ 1024 - 2 ^ 970

/-- The last bit of a double is zero. -/
def IsEven (v : Float) : Prop := v.toBits.toNat % 2 = 0

/-- The number `q` is rounded to the double `v`, to nearest with ties to even. -/
def RoundsTo (q : ℚ) (v : Float) : Prop :=
  |q| < overflowBound ∧ ∃ a, value? v = some a ∧
    ∀ w b, value? w = some b → b ≠ a → |q - a| < |q - b| ∨ |q - a| = |q - b| ∧ IsEven v

/-- A number of units is rounded to a magnitude. -/
def Nearest (x : ℚ) (u : Nat) : Prop :=
  x < overflowUnits ∧ IsMagnitude u ∧
    ∀ w, IsMagnitude w → w ≠ u →
      |x - u| < |x - w| ∨ |x - u| = |x - w| ∧ significand u % 2 = 0

/-- A number of quarters of a unit lies in a rounding interval. -/
def Span.Mem (s : Span) (x : ℚ) : Prop :=
  if s.closed then (s.low : ℚ) ≤ x ∧ x ≤ s.high else (s.low : ℚ) < x ∧ x < s.high

/-! ## Magnitudes and their rounding intervals -/

section Midpoint

variable {a b x : ℚ}

/-- Of two numbers the smaller one is nearer up to their midpoint. -/
lemma abs_sub_lt_abs_sub_iff (h : a < b) : |x - a| < |x - b| ↔ 2 * x < a + b := by
  rw [← sq_lt_sq]
  constructor
  · intro hsq
    nlinarith
  · intro hmid
    nlinarith

lemma abs_sub_lt_abs_sub_iff' (h : a < b) : |x - b| < |x - a| ↔ a + b < 2 * x := by
  rw [← sq_lt_sq]
  constructor
  · intro hsq
    nlinarith
  · intro hmid
    nlinarith

lemma abs_sub_eq_abs_sub_iff (h : a < b) : |x - a| = |x - b| ↔ 2 * x = a + b := by
  rw [le_antisymm_iff, ← not_lt, ← not_lt, abs_sub_lt_abs_sub_iff h, abs_sub_lt_abs_sub_iff' h,
    not_lt, not_lt, le_antisymm_iff]

end Midpoint

lemma Span.Mem.le {s : Span} {x : ℚ} (h : s.Mem x) : (s.low : ℚ) ≤ x ∧ x ≤ s.high := by
  unfold Span.Mem at h
  split_ifs at h
  · exact h
  · exact ⟨h.1.le, h.2.le⟩

/-- At an end that belongs to the interval, the interval is closed. -/
lemma Span.Mem.closed_of_end {s : Span} {x : ℚ} (h : s.Mem x) (hend : x = s.low ∨ x = s.high) :
    s.closed = true := by
  by_contra hopen
  rw [Span.Mem, if_neg hopen] at h
  rcases hend with rfl | rfl
  · exact lt_irrefl _ h.1
  · exact lt_irrefl _ h.2

/-- What lies strictly between the ends is in the interval, and what lies at an end is if the
interval is closed. -/
lemma Span.mem_of_le {s : Span} {x : ℚ} (hlow : (s.low : ℚ) < x ∨ (s.low : ℚ) = x ∧ s.closed = true)
    (hhigh : x < s.high ∨ x = s.high ∧ s.closed = true) : s.Mem x := by
  unfold Span.Mem
  split_ifs with hclosed
  · exact ⟨hlow.elim le_of_lt fun h => h.1.le, hhigh.elim le_of_lt fun h => h.1.le⟩
  · simp only [hclosed, and_false, or_false, Bool.false_eq_true] at hlow hhigh
    exact ⟨hlow, hhigh⟩

/-- A number that is rounded to a magnitude lies on the right side of both midpoints. -/
lemma Nearest.mem_span {u : Nat} {x : ℚ} (hx : 0 ≤ x) (h : Nearest x u) :
    (Span.ofUnits u).Mem (4 * x) := by
  obtain ⟨hlimit, hu, hnear⟩ := h
  refine Span.mem_of_le ?_ ?_
  · rcases Nat.eq_zero_or_pos u with rfl | hpos
    · -- below zero there is no magnitude, and the interval begins at zero
      have hlow : (Span.ofUnits 0).low = 0 := by decide
      have hclosed : (Span.ofUnits 0).closed = true := by decide
      rw [hlow, hclosed, Nat.cast_zero, eq_self_iff_true, and_true]
      exact (show (0 : ℚ) ≤ 4 * x by positivity).lt_or_eq
    · obtain ⟨w, hw, hlt, hlow⟩ := hu.exists_below hpos
      have hltq : (w : ℚ) < u := by exact_mod_cast hlt
      have hlowq : ((Span.ofUnits u).low : ℚ) = 2 * (u + w) := by exact_mod_cast hlow
      rw [hlowq, span_closed]
      rcases hnear w hw hlt.ne with h | ⟨h, heven⟩
      · rw [abs_sub_lt_abs_sub_iff' hltq] at h
        exact Or.inl (by linarith)
      · rw [eq_comm, abs_sub_eq_abs_sub_iff hltq] at h
        exact Or.inr ⟨by linarith, heven⟩
  · rcases hu.exists_above with ⟨w, hw, hlt, hhigh⟩ | hhigh
    · have hltq : (u : ℚ) < w := by exact_mod_cast hlt
      have hhighq : ((Span.ofUnits u).high : ℚ) = 2 * (u + w) := by exact_mod_cast hhigh
      rw [hhighq, span_closed]
      rcases hnear w hw hlt.ne' with h | ⟨h, heven⟩
      · rw [abs_sub_lt_abs_sub_iff hltq] at h
        exact Or.inl (by linarith)
      · rw [abs_sub_eq_abs_sub_iff hltq] at h
        exact Or.inr ⟨by linarith, heven⟩
    · rw [hhigh]
      push_cast
      exact Or.inl (by linarith)

/-- What lies in a rounding interval is below the limit. -/
lemma Span.Mem.lt_overflowUnits {u : Nat} (hu : IsMagnitude u) {x : ℚ}
    (hmem : (Span.ofUnits u).Mem (4 * x)) : x < overflowUnits := by
  obtain ⟨hle, hlt⟩ := hu.high_le_overflow
  rcases hmem.le.2.lt_or_eq with h | h
  · have hleq : ((Span.ofUnits u).high : ℚ) ≤ 4 * overflowUnits := by exact_mod_cast hle
    linarith
  · have hltq : ((Span.ofUnits u).high : ℚ) < 4 * overflowUnits := by
      exact_mod_cast hlt (hmem.closed_of_end (Or.inr h))
    linarith

/-- What lies in a rounding interval is rounded to its magnitude. -/
lemma Span.Mem.nearest {u : Nat} (hu : IsMagnitude u) {x : ℚ}
    (hmem : (Span.ofUnits u).Mem (4 * x)) : Nearest x u := by
  obtain ⟨hlow, hhigh⟩ := hmem.le
  refine ⟨hmem.lt_overflowUnits hu, hu, fun w hw hne => ?_⟩
  rcases lt_or_gt_of_ne hne with hlt | hlt
  · have hltq : (w : ℚ) < u := by exact_mod_cast hlt
    have hmid : (2 * (u + w) : ℚ) ≤ (Span.ofUnits u).low := by exact_mod_cast hu.le_low hw hlt
    rw [abs_sub_lt_abs_sub_iff' hltq, eq_comm, abs_sub_eq_abs_sub_iff hltq]
    rcases (show (w + u : ℚ) ≤ 2 * x by linarith).lt_or_eq with h | h
    · exact Or.inl h
    · refine Or.inr ⟨h.symm, (span_closed u).mp (hmem.closed_of_end (Or.inl ?_))⟩
      linarith
  · have hltq : (u : ℚ) < w := by exact_mod_cast hlt
    have hmid : ((Span.ofUnits u).high : ℚ) ≤ 2 * (u + w) := by exact_mod_cast hu.high_le hw hlt
    rw [abs_sub_lt_abs_sub_iff hltq, abs_sub_eq_abs_sub_iff hltq]
    rcases (show (2 * x : ℚ) ≤ u + w by linarith).lt_or_eq with h | h
    · exact Or.inl h
    · refine Or.inr ⟨h, (span_closed u).mp (hmem.closed_of_end (Or.inr ?_))⟩
      linarith

/-- **The numbers that are rounded to a magnitude make up its rounding interval.** -/
theorem nearest_iff_mem {u : Nat} (hu : IsMagnitude u) {x : ℚ} (hx : 0 ≤ x) :
    Nearest x u ↔ (Span.ofUnits u).Mem (4 * x) :=
  ⟨Nearest.mem_span hx, Span.Mem.nearest hu⟩

lemma significand_mul {q shift : Nat} (hq : q < 2 ^ 53) (hlead : shift = 0 ∨ 2 ^ 52 ≤ q) :
    significand (q * 2 ^ shift) = q := by
  rw [significand, spareBits_mul hq hlead, Nat.shiftRight_eq_div_pow,
    Nat.mul_div_cancel _ (Nat.two_pow_pos shift)]

/-- The next magnitude above an even one is odd. -/
lemma IsMagnitude.odd_add_step {u : Nat} (hu : IsMagnitude u) (heven : significand u % 2 = 0) :
    significand (u + 2 ^ spareBits u) % 2 = 1 := by
  have hlt := hu.significand_lt
  have hnext : u + 2 ^ spareBits u = (significand u + 1) * 2 ^ spareBits u := by
    rw [Nat.succ_mul, ← hu.eq_significand_mul]
  rw [hnext, significand_mul (by omega) (hu.le_significand.imp_right fun h => by omega)]
  omega

/-- Two rounding intervals meet at most in an end, and an end belongs to one of them only, since
of two neighbours one is odd. -/
lemma Nearest.not_lt {u w : Nat} {x : ℚ} (hx : 0 ≤ x) (hu : Nearest x u) (hw : Nearest x w) :
    ¬ u < w := by
  intro hlt
  have hmu := (nearest_iff_mem hu.2.1 hx).mp hu
  have hmw := (nearest_iff_mem hw.2.1 hx).mp hw
  have hup : ((Span.ofUnits u).high : ℚ) ≤ 2 * (u + w) := by
    exact_mod_cast hu.2.1.high_le hw.2.1 hlt
  have hdown : (2 * (w + u) : ℚ) ≤ (Span.ofUnits w).low := by
    exact_mod_cast hw.2.1.le_low hu.2.1 hlt
  have hhigh := hmu.le.2
  have hlow := hmw.le.1
  have hueven := (span_closed u).mp (hmu.closed_of_end (Or.inr (by linarith)))
  have hweven := (span_closed w).mp (hmw.closed_of_end (Or.inl (by linarith)))
  have hnext : w = u + 2 ^ spareBits u := by
    have hmid : (Span.ofUnits u).high = 2 * (u + w) := by
      have hmidq : ((Span.ofUnits u).high : ℚ) = 2 * (u + w) := by linarith
      exact_mod_cast hmidq
    rw [span_high] at hmid
    omega
  have hodd := hu.2.1.odd_add_step hueven
  rw [← hnext] at hodd
  omega

lemma Nearest.unique {u w : Nat} {x : ℚ} (hx : 0 ≤ x) (hu : Nearest x u) (hw : Nearest x w) :
    u = w :=
  le_antisymm (Nat.le_of_not_lt (hw.not_lt hx hu)) (Nat.le_of_not_lt (hu.not_lt hx hw))

/-! ## Doubles and their magnitudes -/

/-- A number with the given sign. -/
def withSign (negative : Bool) (q : ℚ) : ℚ := if negative then -q else q

lemma withSign_abs_sub (negative : Bool) (p q : ℚ) :
    |withSign negative p - withSign negative q| = |p - q| := by
  cases negative
  · rfl
  · simp only [withSign, if_true, neg_sub_neg, abs_sub_comm]

lemma withSign_abs (negative : Bool) (q : ℚ) : |withSign negative q| = |q| := by
  cases negative
  · rfl
  · exact abs_neg q

lemma withSign_abs_self (q : ℚ) : withSign (decide (q < 0)) |q| = q := by
  rcases lt_or_ge q 0 with hneg | hpos
  · simp [withSign, hneg, abs_of_neg]
  · simp [withSign, hpos.not_gt, abs_of_nonneg hpos]

lemma withSign_div (negative : Bool) (p q : ℚ) :
    withSign negative (p / q) = withSign negative p / q := by
  cases negative
  · rfl
  · exact (neg_div q p).symm

lemma withSign_inj {negative : Bool} {p q : ℚ} :
    withSign negative p = withSign negative q ↔ p = q := by
  cases negative
  · rfl
  · exact neg_inj

lemma withSign_not (negative : Bool) (q : ℚ) : withSign (!negative) q = -withSign negative q := by
  cases negative
  · rfl
  · exact (neg_neg q).symm

/-- The number one in units. -/
lemma one_pos_units : (0 : ℚ) < 2 ^ places := by
  generalize places = p
  positivity

/-- A double that is read as a number of units has their value. -/
lemma value?_of_read {v : Float} {negative : Bool} {u : Nat} (h : read v = .finite negative u) :
    value? v = some (withSign negative (u / 2 ^ places)) := by
  simp only [value?, h, withSign, signed]
  generalize (2 : ℚ) ^ places = one
  cases negative <;> simp [neg_div]

lemma exists_read_of_value? {v : Float} {a : ℚ} (h : value? v = some a) :
    ∃ negative u, read v = .finite negative u ∧ a = withSign negative (u / 2 ^ places) := by
  cases hread : read v with
  | finite negative u =>
      have hvalue := value?_of_read hread
      rw [h, Option.some.injEq] at hvalue
      exact ⟨negative, u, rfl, hvalue⟩
  | infinite | undefined => simp [value?, hread] at h

/-- A double is even if its significand is. -/
lemma isEven_iff {v : Float} {negative : Bool} {u : Nat} (h : read v = .finite negative u) :
    IsEven v ↔ significand u % 2 = 0 := by
  have hfraction : (v.toBits &&& 0xFFFFFFFFFFFFF).toNat = v.toBits.toNat % 2 ^ 52 := by
    rw [UInt64.toNat_and]
    exact Nat.and_two_pow_sub_one_eq_mod _ 52
  simp only [read, hfraction] at h
  unfold IsEven
  split_ifs at h with _ _ hsubnormal
  · injection h with _ hu
    have hsig : significand (v.toBits.toNat % 2 ^ 52 * 2 ^ 0) = v.toBits.toNat % 2 ^ 52 :=
      significand_mul (by omega) (Or.inl rfl)
    rw [← hu, ← Nat.mul_one (v.toBits.toNat % 2 ^ 52), ← Nat.pow_zero 2, hsig]
    omega
  · injection h with _ hu
    rw [← hu, Nat.shiftLeft_eq, Nat.shiftLeft_eq, significand_mul (by omega) (Or.inr (by omega))]
    omega

/-- The limit for magnitudes is that for numbers, counted in units. -/
lemma lt_overflowUnits_iff {x : ℚ} :
    x / 2 ^ places < overflowBound ↔ x < overflowUnits := by
  have hlimit : overflowUnits = (2 ^ 54 - 1) * 2 ^ (970 + places) := overflowUnits_eq rfl
  have hbound : overflowBound = 2 ^ (54 + 970) - 2 ^ 970 := rfl
  generalize 970 = k at hlimit hbound
  have hunits : (overflowUnits : ℚ) = overflowBound * 2 ^ places := by
    rw [hlimit, hbound, Nat.pow_add, pow_add, Nat.cast_mul, Nat.cast_sub (by norm_num)]
    push_cast
    ring
  rw [hunits, div_lt_iff₀ one_pos_units]

section RoundsTo

variable {v : Float} {negative : Bool} {u : Nat} {x : ℚ}

/-- The distance of two magnitudes in units. -/
lemma withSign_div_sub (negative : Bool) (x y : ℚ) :
    |withSign negative (x / 2 ^ places) - withSign negative (y / 2 ^ places)| =
      |x - y| / 2 ^ places := by
  rw [withSign_abs_sub, ← sub_div, abs_div, abs_of_pos one_pos_units]

/-- Numbers of different signs are as far apart as their magnitudes together. -/
lemma withSign_div_add {x y : ℚ} (hx : 0 ≤ x) (hy : 0 ≤ y) (negative : Bool) :
    |withSign negative (x / 2 ^ places) - withSign (!negative) (y / 2 ^ places)| =
      (x + y) / 2 ^ places := by
  have hsum : |x + y| = x + y := abs_of_nonneg (add_nonneg hx hy)
  have h := withSign_div_sub negative x (-y)
  rw [sub_neg_eq_add, hsum, neg_div] at h
  rw [← h, withSign_not]
  cases negative <;> rfl

/-- **Rounding is rounding of the magnitude.** -/
theorem roundsTo_iff (hv : read v = .finite negative u) (hx : 0 ≤ x) :
    RoundsTo (withSign negative (x / 2 ^ places)) v ↔ Nearest x u := by
  have hvalue := value?_of_read hv
  have hone := one_pos_units
  have hlimit : |withSign negative (x / 2 ^ places)| < overflowBound ↔ x < overflowUnits := by
    rw [withSign_abs, abs_of_nonneg (div_nonneg hx hone.le), lt_overflowUnits_iff]
  constructor
  · rintro ⟨hbound, a, ha, hnear⟩
    rw [hvalue, Option.some.injEq] at ha
    subst ha
    refine ⟨hlimit.mp hbound, isMagnitude_of_read hv, fun w hw hne => ?_⟩
    have hdiffer : withSign negative ((w : ℚ) / 2 ^ places) ≠
        withSign negative ((u : ℚ) / 2 ^ places) := by
      rw [Ne, withSign_inj, div_left_inj' hone.ne', Nat.cast_inj]
      exact hne
    have hcompare := hnear _ _ (value?_of_read (hw.read_ofUnits negative)) hdiffer
    rwa [withSign_div_sub, withSign_div_sub, div_lt_div_iff_of_pos_right hone,
      div_left_inj' hone.ne', isEven_iff hv] at hcompare
  · rintro ⟨hbound, hu, hnear⟩
    refine ⟨hlimit.mpr hbound, _, hvalue, fun w b hb hdiffer => ?_⟩
    obtain ⟨sign, k, hw, rfl⟩ := exists_read_of_value? hb
    have hk := isMagnitude_of_read hw
    rw [isEven_iff hv, withSign_div_sub]
    by_cases hsign : sign = negative
    · subst hsign
      rw [Ne, withSign_inj, div_left_inj' hone.ne', Nat.cast_inj] at hdiffer
      rw [withSign_div_sub, div_lt_div_iff_of_pos_right hone, div_left_inj' hone.ne']
      exact hnear k hk hdiffer
    · -- on the other side of zero nothing is nearer than on this one
      obtain rfl : sign = !negative := Bool.eq_not.mpr hsign
      rw [withSign_div_add hx (Nat.cast_nonneg k), div_lt_div_iff_of_pos_right hone,
        div_left_inj' hone.ne']
      have hzero : u ≠ 0 → |x - u| < x ∨ |x - u| = x ∧ significand u % 2 = 0 := by
        intro hne
        have h := hnear 0 isMagnitude_zero hne.symm
        rwa [Nat.cast_zero, sub_zero, abs_of_nonneg hx] at h
      rcases Nat.eq_zero_or_pos k with rfl | hpos
      · rw [Nat.cast_zero, add_zero]
        refine hzero fun h => hdiffer ?_
        rw [h, withSign_not]
        simp [withSign]
      · have hle : |x - u| ≤ x := by
          rcases Nat.eq_zero_or_pos u with rfl | hu
          · rw [Nat.cast_zero, sub_zero, abs_of_nonneg hx]
          · exact (hzero hu.ne').elim le_of_lt fun h => h.1.le
        have hposq : (0 : ℚ) < k := by exact_mod_cast hpos
        exact Or.inl (by linarith)

end RoundsTo

/-- Two doubles with the same value have the same magnitude. -/
lemma magnitude_eq_of_value?_eq {v w : Float} {s t : Bool} {u k : Nat}
    (hv : read v = .finite s u) (hw : read w = .finite t k) (h : value? v = value? w) : u = k := by
  rw [value?_of_read hv, value?_of_read hw, Option.some.injEq] at h
  have habs := congrArg abs h
  have hone := one_pos_units
  rw [withSign_abs, withSign_abs, abs_of_nonneg (div_nonneg (Nat.cast_nonneg u) hone.le),
    abs_of_nonneg (div_nonneg (Nat.cast_nonneg k) hone.le), div_left_inj' hone.ne'] at habs
  exact_mod_cast habs

/-- A number that is rounded to a double is rounded to every double of the same value. -/
lemma RoundsTo.of_value?_eq {q : ℚ} {v w : Float} (h : RoundsTo q v)
    (hvalue : value? w = value? v) : RoundsTo q w := by
  obtain ⟨hbound, a, ha, hnear⟩ := h
  obtain ⟨s, u, hv, -⟩ := exists_read_of_value? ha
  obtain ⟨t, k, hw, -⟩ := exists_read_of_value? (hvalue.trans ha)
  obtain rfl := magnitude_eq_of_value?_eq hv hw hvalue.symm
  have heven : IsEven w ↔ IsEven v := (isEven_iff hw).trans (isEven_iff hv).symm
  refine ⟨hbound, a, hvalue.trans ha, fun w' b hb hne => ?_⟩
  rw [heven]
  exact hnear w' b hb hne

/-- A number that is rounded to a double has the sign of the double, and its magnitude is rounded
to that of the double. -/
lemma RoundsTo.exists_nearest {q : ℚ} {v : Float} (h : RoundsTo q v) :
    ∃ u, Nearest (|q| * 2 ^ places) u ∧
      value? v = some (withSign (decide (q < 0)) (u / 2 ^ places)) := by
  have hone := one_pos_units
  have hx : 0 ≤ |q| * 2 ^ places := by positivity
  have hq : q = withSign (decide (q < 0)) (|q| * 2 ^ places / 2 ^ places) := by
    rw [mul_div_cancel_right₀ _ hone.ne', withSign_abs_self]
  generalize decide (q < 0) = sign at hq ⊢
  generalize |q| * 2 ^ places = x at hx hq ⊢
  subst hq
  obtain ⟨-, a, ha, hnear⟩ := id h
  obtain ⟨t, u, hv, rfl⟩ := exists_read_of_value? ha
  by_cases hsign : t = sign
  · subst hsign
    exact ⟨u, (roundsTo_iff hv hx).mp h, ha⟩
  · -- a double on the other side of zero is not nearer than zero, so it is zero
    obtain rfl : t = !sign := Bool.eq_not.mpr hsign
    have hzero := isMagnitude_zero.read_ofUnits sign
    have hvalue : value? (ofUnits sign 0) = some 0 := by
      rw [value?_of_read hzero]
      simp [withSign]
    obtain rfl : u = 0 := by
      by_contra hne
      have hpos : (0 : ℚ) < u := by exact_mod_cast Nat.pos_of_ne_zero hne
      have hle : |withSign sign (x / 2 ^ places) - withSign (!sign) (u / 2 ^ places)| ≤
          |withSign sign (x / 2 ^ places) - 0| := by
        refine (hnear _ 0 hvalue fun h0 => ?_).elim le_of_lt fun h' => h'.1.le
        have habs := congrArg abs h0
        rw [withSign_abs, abs_zero, eq_comm, abs_eq_zero, div_eq_zero_iff] at habs
        exact habs.elim hpos.ne' hone.ne'
      rw [withSign_div_add hx (Nat.cast_nonneg u), sub_zero, withSign_abs,
        abs_of_nonneg (div_nonneg hx hone.le), div_le_div_iff_of_pos_right hone] at hle
      linarith
    have hsame : value? (ofUnits sign 0) = value? v := by
      rw [hvalue, ha]
      simp [withSign]
    exact ⟨0, (roundsTo_iff hzero hx).mp (h.of_value?_eq hsame), hsame ▸ value?_of_read hzero⟩

/-- **A number is rounded to one double only**, up to the sign of zero. -/
theorem RoundsTo.unique {q : ℚ} {v w : Float} (hv : RoundsTo q v) (hw : RoundsTo q w) :
    value? v = value? w := by
  obtain ⟨u, hu, hvalue⟩ := hv.exists_nearest
  obtain ⟨k, hk, hvalue'⟩ := hw.exists_nearest
  have hx : 0 ≤ |q| * 2 ^ places := mul_nonneg (abs_nonneg q) one_pos_units.le
  rw [hvalue, hvalue', hu.unique hx hk]

/-- The value of a double is rounded to the double. -/
lemma roundsTo_self {v : Float} {a : ℚ} (h : value? v = some a) : RoundsTo a v := by
  obtain ⟨s, u, hv, rfl⟩ := exists_read_of_value? h
  have hu := isMagnitude_of_read hv
  refine (roundsTo_iff hv (Nat.cast_nonneg u)).mpr ⟨?_, hu, fun w hw hne => Or.inl ?_⟩
  · have hhigh := hu.high_le_overflow.1
    have hpos := Nat.two_pow_pos (spareBits u)
    rw [span_high] at hhigh
    have hlt : u < overflowUnits := by omega
    exact_mod_cast hlt
  · rw [sub_self, abs_zero, abs_pos, sub_ne_zero]
    exact_mod_cast hne.symm

end Aquarium.Number
