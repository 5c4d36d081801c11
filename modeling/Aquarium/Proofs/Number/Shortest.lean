import Aquarium.Number.Numeral
import Aquarium.Proofs.Number.Nearest

/-!
# The shortest decimal is the shortest

`shortest` walks grids of multiples of powers of ten, from coarse to fine, and stops at the first
one that has a point in the rounding interval.  There is such a grid, since the exact decimal
expansion lies on the last one, and the point it takes there is the nearest
(`IsMagnitude.shortest_spec`).

This is the decimal with the fewest digits that is rounded to the double, and of those the nearest
one (`shortest_isShortest`).  A decimal on a finer grid with as few digits is smaller than the power
of ten with as many.  That power would lie in the interval as well, but on a coarser grid.  The only
exceptions are decimals of one digit, and there the nearest point is nearer than any of them.
-/

namespace Aquarium.Number

/-- The number a decimal stands for. -/
def Decimal.value (d : Decimal) : ℚ := d.coefficient * 10 ^ d.exponent

lemma Decimal.value_nonneg (d : Decimal) : 0 ≤ d.value := by
  unfold value
  positivity

/-- The same in quarters of a unit. -/
def Decimal.quarters (d : Decimal) : ℚ := 4 * (d.value * 2 ^ places)

/-- The distance of the points of a grid, in quarters of a unit. -/
def gridStep (exponent : ℤ) : ℚ := 4 * (10 ^ exponent * 2 ^ places)

lemma gridStep_pos (exponent : ℤ) : 0 < gridStep exponent := by
  have hone := one_pos_units
  unfold gridStep
  positivity

lemma Decimal.quarters_eq (d : Decimal) : d.quarters = d.coefficient * gridStep d.exponent := by
  unfold quarters value gridStep
  ring

/-! ## Points of a grid -/

/-- Both sides of a comparison are scaled by the same positive number. -/
lemma scales_spec (exponent : ℤ) :
    0 < (scales exponent).1 ∧ 0 < (scales exponent).2 ∧
      ((scales exponent).1 : ℚ) = (scales exponent).2 * gridStep exponent := by
  unfold scales gridStep
  generalize places = p
  simp only [Nat.shiftLeft_eq, Nat.pow_eq]
  split_ifs with h
  · obtain ⟨n, rfl⟩ := Int.eq_ofNat_of_zero_le h
    refine ⟨by positivity, Nat.one_pos, ?_⟩
    rw [Int.toNat_natCast, zpow_natCast]
    push_cast
    ring
  · obtain ⟨n, rfl⟩ : ∃ n : Nat, exponent = -(n : ℤ) := ⟨(-exponent).toNat, by omega⟩
    refine ⟨by positivity, by positivity, ?_⟩
    rw [neg_neg, Int.toNat_natCast, zpow_neg, zpow_natCast]
    push_cast
    field_simp

namespace Span

variable {s : Span}

lemma contains_iff (d : Decimal) : s.contains d = true ↔ s.Mem d.quarters := by
  obtain ⟨-, hb, hab⟩ := scales_spec d.exponent
  have hbq : (0 : ℚ) < (scales d.exponent).2 := by exact_mod_cast hb
  have hpoint : ((d.coefficient * (scales d.exponent).1 : Nat) : ℚ) =
      d.quarters * (scales d.exponent).2 := by
    rw [Decimal.quarters_eq, Nat.cast_mul, hab]
    ring
  have hle : ∀ n : Nat, n * (scales d.exponent).2 ≤ d.coefficient * (scales d.exponent).1 ↔
      (n : ℚ) ≤ d.quarters := by
    intro n
    rw [← Nat.cast_le (α := ℚ), hpoint, Nat.cast_mul, mul_le_mul_iff_of_pos_right hbq]
  have hge : ∀ n : Nat, d.coefficient * (scales d.exponent).1 ≤ n * (scales d.exponent).2 ↔
      d.quarters ≤ n := by
    intro n
    rw [← Nat.cast_le (α := ℚ), hpoint, Nat.cast_mul, mul_le_mul_iff_of_pos_right hbq]
  simp only [contains, Mem]
  split_ifs
  · rw [Bool.and_eq_true, decide_eq_true_eq, decide_eq_true_eq, hle, hge]
  · rw [Bool.and_eq_true, decide_eq_true_eq, decide_eq_true_eq, ← not_le, hge, ← not_le, hle,
      not_le, not_le]

/-- An interval contains what lies between two of its points. -/
lemma Mem.convex {x y z : ℚ} (hx : s.Mem x) (hz : s.Mem z) (hxy : x ≤ y) (hyz : y ≤ z) :
    s.Mem y := by
  unfold Mem at *
  split_ifs at *
  · exact ⟨hx.1.trans hxy, hyz.trans hz.2⟩
  · exact ⟨hx.1.trans_le hxy, hyz.trans_lt hz.2⟩

variable {exponent : ℤ}

/-- The number of the last point of a grid up to the middle of an interval. -/
def lastBelow (s : Span) (exponent : ℤ) : Nat :=
  s.middle * (scales exponent).2 / (scales exponent).1

/-- The middle lies between two neighbouring points of a grid. -/
lemma middle_between (s : Span) (exponent : ℤ) :
    (s.lastBelow exponent : ℚ) * gridStep exponent ≤ s.middle ∧
      (s.middle : ℚ) < (s.lastBelow exponent + 1) * gridStep exponent := by
  obtain ⟨ha, hb, hab⟩ := scales_spec exponent
  have hbq : (0 : ℚ) < (scales exponent).2 := by exact_mod_cast hb
  have hdown : s.lastBelow exponent * (scales exponent).1 ≤ s.middle * (scales exponent).2 :=
    Nat.div_mul_le_self _ _
  have hup : s.middle * (scales exponent).2 <
      s.lastBelow exponent * (scales exponent).1 + (scales exponent).1 := Nat.lt_div_mul_add ha
  rw [← Nat.cast_le (α := ℚ)] at hdown
  rw [← Nat.cast_lt (α := ℚ)] at hup
  push_cast at hdown hup
  rw [hab] at hdown hup
  constructor
  · refine le_of_mul_le_mul_right ?_ hbq
    linarith
  · refine lt_of_mul_lt_mul_right ?_ hbq.le
    linarith

/-- The rest of the division tells which of the two is nearer. -/
lemma nearer_below_iff (s : Span) (exponent : ℤ) :
    2 * (s.middle * (scales exponent).2 % (scales exponent).1) < (scales exponent).1 ↔
      2 * (s.middle - s.lastBelow exponent * gridStep exponent) < gridStep exponent := by
  obtain ⟨-, hb, hab⟩ := scales_spec exponent
  have hbq : (0 : ℚ) < (scales exponent).2 := by exact_mod_cast hb
  have hrest : (scales exponent).1 * s.lastBelow exponent +
      s.middle * (scales exponent).2 % (scales exponent).1 = s.middle * (scales exponent).2 :=
    Nat.div_add_mod _ _
  generalize s.middle * (scales exponent).2 % (scales exponent).1 = r at hrest ⊢
  have hleft : ((2 * r : Nat) : ℚ) =
      2 * (s.middle - s.lastBelow exponent * gridStep exponent) * (scales exponent).2 := by
    rw [← Nat.cast_inj (R := ℚ)] at hrest
    push_cast at hrest ⊢
    rw [hab] at hrest
    linarith
  rw [← Nat.cast_lt (α := ℚ), hleft, hab, mul_comm ((scales exponent).2 : ℚ) (gridStep exponent),
    mul_lt_mul_iff_of_pos_right hbq]

/-- Above zero no point is excluded but for not being in the interval. -/
lemma contains_below_and_iff (hlow : 0 < s.low) (k : Nat) :
    (s.contains ⟨k, exponent⟩ && k != 0) = s.contains ⟨k, exponent⟩ := by
  rw [Bool.and_eq_left_iff_imp, contains_iff, Decimal.quarters_eq, bne_iff_ne]
  rintro hmem rfl
  have hle := hmem.le.1
  rw [Nat.cast_zero, zero_mul] at hle
  exact absurd hlow (by exact_mod_cast hle.not_gt)

/-- A decimal is the point of its grid in the interval that is nearest to the middle. -/
def IsNearestPoint (s : Span) (d : Decimal) : Prop :=
  s.Mem d.quarters ∧
    ∀ j : Nat, s.Mem (j * gridStep d.exponent) →
      |d.quarters - s.middle| ≤ |j * gridStep d.exponent - s.middle|

/-- Nothing up to the middle is nearer to it than the last point. -/
lemma lastBelow_nearest {j : Nat} (hj : j ≤ s.lastBelow exponent) :
    |s.lastBelow exponent * gridStep exponent - s.middle| ≤ |j * gridStep exponent - s.middle| := by
  have hdown := (middle_between s exponent).1
  have hle : (j : ℚ) * gridStep exponent ≤ s.lastBelow exponent * gridStep exponent :=
    mul_le_mul_of_nonneg_right (by exact_mod_cast hj) (gridStep_pos exponent).le
  rw [abs_of_nonpos (by linarith), abs_of_nonpos (by linarith)]
  linarith

/-- Nothing above the middle is nearer to it than the next point. -/
lemma firstAbove_nearest {j : Nat} (hj : s.lastBelow exponent < j) :
    |(s.lastBelow exponent + 1) * gridStep exponent - s.middle| ≤
      |j * gridStep exponent - s.middle| := by
  have hup := (middle_between s exponent).2
  have hle : (s.lastBelow exponent + 1 : ℚ) * gridStep exponent ≤ j * gridStep exponent :=
    mul_le_mul_of_nonneg_right (by exact_mod_cast hj) (gridStep_pos exponent).le
  rw [abs_of_nonneg (by linarith), abs_of_nonneg (by linarith)]
  linarith

/-- Of the two points around the middle, the one taken is the nearer. -/
lemma lastBelow_le_firstAbove_iff :
    |s.lastBelow exponent * gridStep exponent - s.middle| <
        |(s.lastBelow exponent + 1) * gridStep exponent - s.middle| ↔
      2 * (s.middle * (scales exponent).2 % (scales exponent).1) < (scales exponent).1 := by
  obtain ⟨hdown, hup⟩ := middle_between s exponent
  rw [nearer_below_iff, abs_of_nonpos (by linarith), abs_of_nonneg (by linarith)]
  constructor <;> intro h <;> linarith

section OnGrid

variable (hmiddle : s.Mem s.middle)
include hmiddle

/-- A point of a grid in the interval up to the middle leaves the last such point in it. -/
lemma contains_lastBelow {j : Nat} (hj : s.Mem (j * gridStep exponent))
    (hle : j ≤ s.lastBelow exponent) : s.contains ⟨s.lastBelow exponent, exponent⟩ = true := by
  rw [contains_iff, Decimal.quarters_eq]
  refine hj.convex hmiddle ?_ (middle_between s exponent).1
  exact mul_le_mul_of_nonneg_right (by exact_mod_cast hle) (gridStep_pos exponent).le

lemma contains_firstAbove {j : Nat} (hj : s.Mem (j * gridStep exponent))
    (hlt : s.lastBelow exponent < j) : s.contains ⟨s.lastBelow exponent + 1, exponent⟩ = true := by
  rw [contains_iff, Decimal.quarters_eq]
  refine hmiddle.convex hj ?_ ?_
  · exact_mod_cast (middle_between s exponent).2.le
  · exact mul_le_mul_of_nonneg_right (by exact_mod_cast hlt) (gridStep_pos exponent).le

variable (hlow : 0 < s.low)
include hlow

omit hmiddle in
/-- Which of the two points around the middle is taken. -/
lemma onGrid?_eq (exponent : ℤ) :
    s.onGrid? exponent =
      if s.contains ⟨s.lastBelow exponent, exponent⟩ = true then
        if s.contains ⟨s.lastBelow exponent + 1, exponent⟩ = true then
          some (if 2 * (s.middle * (scales exponent).2 % (scales exponent).1) < (scales exponent).1
            then ⟨s.lastBelow exponent, exponent⟩ else ⟨s.lastBelow exponent + 1, exponent⟩)
        else some ⟨s.lastBelow exponent, exponent⟩
      else if s.contains ⟨s.lastBelow exponent + 1, exponent⟩ = true then
        some ⟨s.lastBelow exponent + 1, exponent⟩
      else none := by
  rw [← contains_below_and_iff hlow]
  simp only [onGrid?, lastBelow]
  split
  all_goals
    rename_i hbelow habove
    simp only [hbelow, habove, if_true, if_false, Bool.false_eq_true]

/-- What is found on a grid is its nearest point in the interval. -/
lemma onGrid?_eq_some {exponent : ℤ} {d : Decimal} (h : s.onGrid? exponent = some d) :
    d.exponent = exponent ∧ s.IsNearestPoint d := by
  have hpoint : ∀ k : Nat, s.contains ⟨k, exponent⟩ = true →
      (∀ j : Nat, s.Mem (j * gridStep exponent) →
        |k * gridStep exponent - s.middle| ≤ |j * gridStep exponent - s.middle|) →
      some ⟨k, exponent⟩ = some d → d.exponent = exponent ∧ s.IsNearestPoint d := by
    intro k hk hnear hd
    rw [Option.some.injEq] at hd
    rw [← hd]
    refine ⟨rfl, (contains_iff _).mp hk, ?_⟩
    rw [Decimal.quarters_eq]
    exact hnear
  rw [onGrid?_eq hlow] at h
  split_ifs at h with hbelow habove hnearer habove
  · rw [← lastBelow_le_firstAbove_iff] at hnearer
    refine hpoint _ hbelow (fun j _ => ?_) h
    rcases Nat.lt_or_ge (s.lastBelow exponent) j with hj | hj
    · exact hnearer.le.trans (firstAbove_nearest hj)
    · exact lastBelow_nearest hj
  · rw [← lastBelow_le_firstAbove_iff, not_lt] at hnearer
    refine hpoint _ habove (fun j _ => ?_) h
    push_cast
    rcases Nat.lt_or_ge (s.lastBelow exponent) j with hj | hj
    · exact firstAbove_nearest hj
    · exact hnearer.trans (lastBelow_nearest hj)
  · refine hpoint _ hbelow (fun j hj => lastBelow_nearest (Nat.le_of_not_lt fun hlt => ?_)) h
    exact habove (contains_firstAbove hmiddle hj hlt)
  · refine hpoint _ habove (fun j hj => ?_) h
    push_cast
    refine firstAbove_nearest (Nat.lt_of_not_le fun hle => ?_)
    exact hbelow (contains_lastBelow hmiddle hj hle)

/-- Nothing is found on a grid only if it has no point in the interval. -/
lemma onGrid?_eq_none {exponent : ℤ} (h : s.onGrid? exponent = none) (j : Nat) :
    ¬ s.Mem (j * gridStep exponent) := by
  intro hj
  rw [onGrid?_eq hlow] at h
  split_ifs at h with hbelow _ habove
  rcases Nat.lt_or_ge (s.lastBelow exponent) j with hlt | hle
  · exact habove (contains_firstAbove hmiddle hj hlt)
  · exact hbelow (contains_lastBelow hmiddle hj hle)

/-- The walk finds the nearest point of the first grid that has one in the interval. -/
lemma firstOnGrid?_spec (count : Nat) (exponent : ℤ)
    (hexists : ∃ k < count, ∃ j : Nat, s.Mem (j * gridStep (exponent - k))) :
    ∃ d, s.firstOnGrid? count exponent = some d ∧ s.IsNearestPoint d ∧ d.exponent ≤ exponent ∧
      ∀ e, d.exponent < e → e ≤ exponent → ∀ j : Nat, ¬ s.Mem (j * gridStep e) := by
  induction count generalizing exponent with
  | zero =>
      obtain ⟨k, hk, -⟩ := hexists
      exact absurd hk (Nat.not_lt_zero k)
  | succ count ih =>
      simp only [firstOnGrid?]
      cases hfound : s.onGrid? exponent with
      | some d =>
          obtain ⟨hexponent, hnear⟩ := onGrid?_eq_some hmiddle hlow hfound
          exact ⟨d, rfl, hnear, hexponent.le, fun e hlt hle => absurd hlt (by omega)⟩
      | none =>
          have hnone := onGrid?_eq_none hmiddle hlow hfound
          obtain ⟨k, hk, j, hj⟩ := hexists
          have hk0 : k ≠ 0 := by
            rintro rfl
            rw [Nat.cast_zero, sub_zero] at hj
            exact hnone j hj
          have hshift : exponent - k = exponent - 1 - (k - 1 : Nat) := by omega
          obtain ⟨d, hd, hnear, hle, hfiner⟩ :=
            ih (exponent - 1) ⟨k - 1, by omega, j, hshift ▸ hj⟩
          refine ⟨d, hd, hnear, by omega, fun e hlt hle' => ?_⟩
          rcases hle'.lt_or_eq with h | rfl
          · exact hfiner e hlt (by omega)
          · exact hnone

end OnGrid

end Span

/-! ## The walk finds a point -/

/-- A grid that is coarser by some places has points that many times as far apart. -/
lemma gridStep_add (exponent : ℤ) (n : Nat) :
    gridStep (exponent + n) = 10 ^ n * gridStep exponent := by
  rw [gridStep, gridStep, zpow_add₀ (by norm_num), zpow_natCast]
  ring

/-- The grids against that of the whole numbers. -/
lemma gridStep_eq (exponent : ℤ) : gridStep exponent = 10 ^ exponent * gridStep 0 := by
  rw [gridStep, gridStep, zpow_zero]
  ring

lemma Decimal.quarters_eq_value_mul (d : Decimal) : d.quarters = d.value * gridStep 0 := by
  rw [quarters, gridStep, zpow_zero]
  ring

lemma gridStep_mono {e e' : ℤ} (h : e ≤ e') : gridStep e ≤ gridStep e' := by
  have hone := one_pos_units
  have hpow : (10 : ℚ) ^ e ≤ 10 ^ e' := zpow_le_zpow_right₀ (by norm_num) h
  unfold gridStep
  gcongr

/-- The exact expansion of a double ends as many places after the point as a unit does. -/
lemma gridStep_neg_places (u : Nat) :
    ((u * 5 ^ places : Nat) : ℚ) * gridStep (-places) = 4 * u := by
  unfold gridStep
  generalize places = p
  rw [zpow_neg, zpow_natCast, show (10 : ℚ) = 5 * 2 by norm_num, mul_pow]
  push_cast
  field_simp

/-- An interval reaches down by half a step at most. -/
lemma le_span_low_add (u : Nat) : 4 * u ≤ (Span.ofUnits u).low + 2 * 2 ^ spareBits u := by
  by_cases hpower : significand u = 2 ^ 52 ∧ spareBits u ≠ 0
  · rw [span_low_of_power hpower.1 hpower.2]
    omega
  · rw [span_low_of_not_power hpower]
    omega

lemma span_middle (u : Nat) : (Span.ofUnits u).middle = 4 * u := rfl

namespace IsMagnitude

variable {u : Nat} (hu : IsMagnitude u) (hpos : 0 < u)
include hu hpos

lemma step_le : 2 ^ spareBits u ≤ u := by
  nth_rewrite 2 [hu.eq_significand_mul]
  exact Nat.le_mul_of_pos_left _ (hu.significand_pos hpos)

/-- A rounding interval reaches down by half of the number at most, and up as well. -/
lemma span_bounds :
    2 * u ≤ (Span.ofUnits u).low ∧ (Span.ofUnits u).low < 4 * u ∧ 4 * u < (Span.ofUnits u).high ∧
      (Span.ofUnits u).high ≤ 6 * u := by
  obtain ⟨w, -, hlt, hlow⟩ := hu.exists_below hpos
  have hstep := hu.step_le hpos
  have hspos := Nat.two_pow_pos (spareBits u)
  rw [hlow, span_high]
  omega

lemma span_low_pos : 0 < (Span.ofUnits u).low := by
  have h := (hu.span_bounds hpos).1
  omega

lemma middle_mem : (Span.ofUnits u).Mem (Span.ofUnits u).middle := by
  obtain ⟨-, hlow, hhigh, -⟩ := hu.span_bounds hpos
  rw [span_middle]
  exact Span.mem_of_le (Or.inl (by exact_mod_cast hlow)) (Or.inl (by exact_mod_cast hhigh))

/-- What lies in a rounding interval is positive. -/
lemma pos_of_mem {x : ℚ} (h : (Span.ofUnits u).Mem x) : 0 < x := by
  have hlow : (0 : ℚ) < (Span.ofUnits u).low := by exact_mod_cast hu.span_low_pos hpos
  exact hlow.trans_le h.le.1

/-- A grid of a power of ten with more digits than the whole part has no point in the interval. -/
lemma not_mem_of_coarse (e : ℤ) (he : ((Nat.toDigits 10 (u >>> places)).length : ℤ) < e) (j : Nat) :
    ¬ (Span.ofUnits u).Mem (j * gridStep e) := by
  intro hmem
  have hstep := gridStep_pos e
  have hjpos : 0 < j := by
    have h := hu.pos_of_mem hpos hmem
    exact_mod_cast pos_of_mul_pos_left h hstep.le
  have hwhole : u < 10 ^ (Nat.toDigits 10 (u >>> places)).length * 2 ^ places := by
    have h := (Nat.length_toDigits_le_iff (b := 10) (n := u >>> places) (by norm_num)
      Nat.length_toDigits_pos).mp le_rfl
    rwa [Nat.shiftRight_eq_div_pow, Nat.div_lt_iff_lt_mul (Nat.two_pow_pos places),
      ← Nat.shiftRight_eq_div_pow] at h
  generalize (Nat.toDigits 10 (u >>> places)).length = start at he hwhole
  have hcoarse : gridStep ((start : ℤ) + (1 : Nat)) ≤ gridStep e := gridStep_mono (by omega)
  rw [gridStep_add, gridStep, zpow_natCast] at hcoarse
  have hpoint : gridStep e ≤ j * gridStep e :=
    le_mul_of_one_le_left hstep.le (by exact_mod_cast hjpos)
  have hhigh : ((Span.ofUnits u).high : ℚ) ≤ 6 * u := by exact_mod_cast (hu.span_bounds hpos).2.2.2
  have hwholeq : (u : ℚ) < 10 ^ start * 2 ^ places := by exact_mod_cast hwhole
  have hupos : (0 : ℚ) < u := by exact_mod_cast hpos
  have hle := hmem.le.2
  linarith

/-- **The walk ends at the nearest point of the coarsest grid that has a point in the rounding
interval.** -/
theorem shortest_spec :
    (Span.ofUnits u).IsNearestPoint (shortest u) ∧
      ∀ e, (shortest u).exponent < e → ∀ j : Nat, ¬ (Span.ofUnits u).Mem (j * gridStep e) := by
  have hexact : (Span.ofUnits u).Mem ((u * 5 ^ places : Nat) * gridStep (-places)) := by
    rw [gridStep_neg_places]
    exact_mod_cast hu.middle_mem hpos
  have hcoarse := hu.not_mem_of_coarse hpos
  unfold shortest
  generalize (Nat.toDigits 10 (u >>> places)).length = start at hcoarse ⊢
  have hlast : (start : ℤ) - (start + places : Nat) = -places := by omega
  obtain ⟨d, hd, hnear, -, hnone⟩ := Span.firstOnGrid?_spec (hu.middle_mem hpos)
    (hu.span_low_pos hpos) (start + places + 1) start
    ⟨start + places, Nat.lt_succ_self _, u * 5 ^ places, hlast ▸ hexact⟩
  simp only [hd, Option.getD_some]
  refine ⟨hnear, fun e he => ?_⟩
  rcases le_or_gt e start with h | h
  · exact hnone e he h
  · exact hcoarse e h

end IsMagnitude

/-! ## Fewest digits -/

/-- The number of digits of a decimal. -/
def Decimal.length (d : Decimal) : Nat := (digits d.coefficient).length

lemma Decimal.length_pos (d : Decimal) : 0 < d.length := Nat.length_toDigits_pos

lemma Decimal.length_le_iff {d : Decimal} {k : Nat} (hk : 0 < k) :
    d.length ≤ k ↔ d.coefficient < 10 ^ k :=
  Nat.length_toDigits_le_iff (by norm_num) hk

/-- The leading place of a decimal. -/
lemma Decimal.pow_le_coefficient {d : Decimal} (hpos : 0 < d.coefficient) :
    10 ^ (d.length - 1) ≤ d.coefficient := by
  rcases Nat.eq_zero_or_pos (d.length - 1) with h | h
  · rw [h, pow_zero]
    exact hpos
  · by_contra hlt
    have hle := (length_le_iff h).mpr (Nat.lt_of_not_le hlt)
    omega

/-! A decimal lies between two powers of ten that its last place and its digits give. -/

lemma Decimal.value_lt_pow (d : Decimal) : d.value < 10 ^ (d.exponent + d.length) := by
  have hlt := (length_le_iff d.length_pos).mp le_rfl
  have hltq : (d.coefficient : ℚ) < 10 ^ d.length := by exact_mod_cast hlt
  rw [value, zpow_add₀ (by norm_num), zpow_natCast, mul_comm]
  exact mul_lt_mul_of_pos_left hltq (by positivity)

lemma Decimal.pow_le_value {d : Decimal} (hpos : 0 < d.coefficient) :
    10 ^ (d.exponent + d.length - 1) ≤ d.value := by
  have hle : (10 : ℚ) ^ (d.length - 1) ≤ d.coefficient := by exact_mod_cast pow_le_coefficient hpos
  have hlength := d.length_pos
  rw [value, show d.exponent + d.length - 1 = ((d.length - 1 : Nat) : ℤ) + d.exponent by omega,
    zpow_add₀ (by norm_num), zpow_natCast]
  exact mul_le_mul_of_nonneg_right hle (by positivity)

lemma Decimal.quarters_lt_gridStep (d : Decimal) :
    d.quarters < gridStep (d.exponent + d.length) := by
  rw [quarters_eq_value_mul, gridStep_eq (_ + _)]
  exact mul_lt_mul_of_pos_right d.value_lt_pow (gridStep_pos 0)

lemma Decimal.gridStep_le_quarters {d : Decimal} (hpos : 0 < d.coefficient) :
    gridStep (d.exponent + d.length - 1) ≤ d.quarters := by
  rw [quarters_eq_value_mul, gridStep_eq (_ - _)]
  exact mul_le_mul_of_nonneg_right (pow_le_value hpos) (gridStep_pos 0).le

/-- A decimal of one digit is at most nine tenths of a power of ten above its place. -/
lemma Decimal.quarters_le_of_length_eq_one {d : Decimal} {e : ℤ} (hlength : d.length = 1)
    (hfine : d.exponent < e) : 10 * d.quarters ≤ 9 * gridStep e := by
  have hdigit := (length_le_iff Nat.one_pos).mp hlength.le
  have hdigitq : (d.coefficient : ℚ) ≤ 9 := by exact_mod_cast Nat.le_of_lt_succ hdigit
  have hstep := gridStep_mono (show d.exponent + (1 : Nat) ≤ e by omega)
  rw [gridStep_add, pow_one] at hstep
  have hpos := gridStep_pos d.exponent
  calc 10 * d.quarters = d.coefficient * (10 * gridStep d.exponent) := by
        rw [quarters_eq]
        ring
    _ ≤ 9 * gridStep e := mul_le_mul hdigitq hstep (by linarith) (by norm_num)

/-- The number `10 ^ (-323)` is a little over two units. -/
lemma pow_bounds : 202 * 10 ^ 323 < 100 * 2 ^ places ∧ 100 * 2 ^ places < 203 * 10 ^ 323 := by
  -- in two steps, since the exponents are too large to be computed with
  rw [show places = 179 * 6 from rfl, show 323 = 19 * 17 from rfl, pow_mul, pow_mul]
  norm_num

/-- The power of ten next to the smallest doubles, in quarters of a unit. -/
lemma gridStep_bounds : 8.08 < gridStep (-323) ∧ gridStep (-323) < 8.12 := by
  obtain ⟨hlow, hhigh⟩ := pow_bounds
  unfold gridStep
  generalize places = p at *
  obtain ⟨n, hn⟩ : ∃ n, n = 323 := ⟨_, rfl⟩
  rw [← hn] at hlow hhigh
  rw [show (-323 : ℤ) = -(n : ℤ) by omega, zpow_neg, zpow_natCast]
  have hten : (0 : ℚ) < 10 ^ n := by positivity
  have hlowq : (202 * 10 ^ n : ℚ) < 100 * 2 ^ p := by exact_mod_cast hlow
  have hhighq : (100 * 2 ^ p : ℚ) < 203 * 10 ^ n := by exact_mod_cast hhigh
  rw [inv_mul_eq_div, ← mul_div_assoc, lt_div_iff₀ hten, div_lt_iff₀ hten]
  constructor <;> linarith

namespace IsMagnitude

variable {u : Nat} (hu : IsMagnitude u) (hpos : 0 < u)
include hu hpos

lemma coefficient_pos {d : Decimal} (hd : (Span.ofUnits u).Mem d.quarters) : 0 < d.coefficient := by
  have h := hu.pos_of_mem hpos hd
  rw [Decimal.quarters_eq] at h
  exact_mod_cast pos_of_mul_pos_left h (gridStep_pos d.exponent).le

/-- The shortest decimal has no zero at its end. -/
lemma shortest_coefficient_mod : (shortest u).coefficient % 10 ≠ 0 := by
  intro hzero
  obtain ⟨⟨hmem, -⟩, hnone⟩ := hu.shortest_spec hpos
  refine hnone ((shortest u).exponent + (1 : Nat)) (by omega) ((shortest u).coefficient / 10) ?_
  have hten : (((shortest u).coefficient / 10 : Nat) : ℚ) * 10 = (shortest u).coefficient := by
    exact_mod_cast Nat.div_mul_cancel (Nat.dvd_of_mod_eq_zero hzero)
  rwa [gridStep_add, pow_one, ← mul_assoc, hten, ← Decimal.quarters_eq]

/-- A decimal up to the power of ten with as many digits as the shortest one puts that power into
the interval.  It lies on a coarser grid, unless there is only one digit. -/
lemma length_shortest_eq_one {d : Decimal} (hd : (Span.ofUnits u).Mem d.quarters)
    (hbelow : d.exponent + d.length ≤ (shortest u).exponent + (shortest u).length - 1) :
    (shortest u).length = 1 := by
  by_contra hlong
  have hlength := (shortest u).length_pos
  obtain ⟨⟨hmem, -⟩, hnone⟩ := hu.shortest_spec hpos
  refine hnone ((shortest u).exponent + (shortest u).length - 1) (by omega) 1 ?_
  rw [Nat.cast_one, one_mul]
  exact hd.convex hmem (d.quarters_lt_gridStep.le.trans (gridStep_mono hbelow))
    (Decimal.gridStep_le_quarters (hu.coefficient_pos hpos hmem))

/-- Only the interval of a number without spare bits is wide enough for two numbers of which one is
a tenth larger. -/
lemma spareBits_eq_zero {x y : ℚ} (hx : (Span.ofUnits u).Mem x) (hy : (Span.ofUnits u).Mem y)
    (hwide : 10 * x ≤ 9 * y) : spareBits u = 0 := by
  rcases hu.le_significand with h | hlead
  · exact h
  · have hsig : (2 : ℚ) ^ 52 * 2 ^ spareBits u ≤ u := by
      have h := Nat.mul_le_mul_right (2 ^ spareBits u) hlead
      rw [← hu.eq_significand_mul] at h
      exact_mod_cast h
    have hlow : (4 * u : ℚ) ≤ (Span.ofUnits u).low + 2 * 2 ^ spareBits u := by
      exact_mod_cast le_span_low_add u
    have hhigh : ((Span.ofUnits u).high : ℚ) = 4 * u + 2 * 2 ^ spareBits u := by
      exact_mod_cast span_high u
    have hupos : (0 : ℚ) < u := by exact_mod_cast hpos
    have hxlow := hx.le.1
    have hyhigh := hy.le.2
    linarith

/-- A decimal of one digit below a power of ten in the interval is farther from the middle. -/
lemma power_nearer {x : ℚ} {e : ℤ} (hx : (Span.ofUnits u).Mem x)
    (hpower : (Span.ofUnits u).Mem (gridStep e)) (hbelow : 10 * x ≤ 9 * gridStep e) :
    |gridStep e - (Span.ofUnits u).middle| ≤ |x - (Span.ofUnits u).middle| := by
  have hmiddle : ((Span.ofUnits u).middle : ℚ) = 4 * u := by exact_mod_cast span_middle u
  have hpowpos := gridStep_pos e
  rw [hmiddle]
  rcases le_or_gt (gridStep e) (4 * u) with hle | hlt
  · rw [abs_of_nonpos (by linarith), abs_of_nonpos (by linarith)]
    linarith
  · -- the power is above the number, which leaves only the second smallest double
    have hspare := hu.spareBits_eq_zero hpos hx hpower hbelow
    have hhigh : gridStep e ≤ 4 * u + 2 := by
      have h := hpower.le.2
      rw [span_high, hspare] at h
      exact_mod_cast h
    have hlow : (4 * u : ℚ) ≤ x + 2 := by
      have h := le_span_low_add u
      rw [hspare] at h
      have hq : (4 * u : ℚ) ≤ (Span.ofUnits u).low + 2 := by exact_mod_cast h
      linarith [hx.le.1]
    obtain ⟨hb1, hb2⟩ := gridStep_bounds
    have huone : (1 : ℚ) ≤ u := by exact_mod_cast hpos
    have he : e = -323 := by
      rcases lt_trichotomy e (-323) with h | h | h
      · have hstep := gridStep_mono (show e + (1 : Nat) ≤ -323 by omega)
        rw [gridStep_add] at hstep
        linarith
      · exact h
      · have hstep := gridStep_mono (show -323 + ((1 : Nat) : ℤ) ≤ e by omega)
        rw [gridStep_add] at hstep
        linarith
    subst he
    have hutwo : u = 2 := by
      have h1 : (u : ℚ) < 3 := by linarith
      have h2 : (1 : ℚ) < u := by linarith
      have h1' : u < 3 := by exact_mod_cast h1
      have h2' : 1 < u := by exact_mod_cast h2
      omega
    subst hutwo
    push_cast
    rw [abs_of_pos (by linarith), abs_of_neg (by linarith)]
    linarith

/-- A decimal of one digit on a finer grid is not nearer than the shortest one, if that has one
digit as well. -/
lemma shortest_nearer_of_finer {d : Decimal} (hd : (Span.ofUnits u).Mem d.quarters)
    (hfine : d.exponent < (shortest u).exponent) (hone : (shortest u).length = 1)
    (hlength : d.length = 1) :
    |(shortest u).quarters - (Span.ofUnits u).middle| ≤ |d.quarters - (Span.ofUnits u).middle| := by
  obtain ⟨⟨hmem, hnear⟩, -⟩ := hu.shortest_spec hpos
  have hlead := Decimal.gridStep_le_quarters (hu.coefficient_pos hpos hmem)
  rw [hone, Nat.cast_one, add_sub_cancel_right] at hlead
  have hbelow := Decimal.quarters_le_of_length_eq_one hlength hfine
  have hstep := gridStep_pos (shortest u).exponent
  have hpower : (Span.ofUnits u).Mem (gridStep (shortest u).exponent) :=
    hd.convex hmem (by linarith) hlead
  have hfirst := hnear 1 (by rwa [Nat.cast_one, one_mul])
  rw [Nat.cast_one, one_mul] at hfirst
  exact hfirst.trans (hu.power_nearer hpos hd hpower hbelow)

/-- **No decimal in the rounding interval has fewer digits than the shortest one**, and none with as
few is nearer. -/
theorem shortest_fewest {d : Decimal} (hd : (Span.ofUnits u).Mem d.quarters) :
    (shortest u).length ≤ d.length ∧
      (d.length = (shortest u).length →
        |(shortest u).quarters - (Span.ofUnits u).middle| ≤
          |d.quarters - (Span.ofUnits u).middle|) := by
  obtain ⟨⟨-, hnear⟩, hnone⟩ := hu.shortest_spec hpos
  have hone := hu.length_shortest_eq_one hpos hd
  have hlength := d.length_pos
  have hfine : d.exponent ≤ (shortest u).exponent := by
    by_contra hcoarse
    rw [Decimal.quarters_eq] at hd
    exact hnone d.exponent (by omega) d.coefficient hd
  refine ⟨?_, fun hsame => ?_⟩
  · by_contra hshort
    have := hone (by omega)
    omega
  · rcases hfine.lt_or_eq with hlt | heq
    · have hdigit := hone (by omega)
      exact hu.shortest_nearer_of_finer hpos hd hlt hdigit (hsame.trans hdigit)
    · have hquarters : d.quarters = d.coefficient * gridStep (shortest u).exponent := by
        rw [Decimal.quarters_eq, heq]
      rw [hquarters] at hd ⊢
      exact hnear d.coefficient hd

end IsMagnitude

/-! ## Shortest decimals of a double -/

/-- A decimal, taken with a sign, is written for a double: it is rounded to the double, no decimal
with fewer digits is, and none with as many that is lies nearer. -/
structure IsShortest (negative : Bool) (d : Decimal) (v : Float) : Prop where
  rounds : RoundsTo (withSign negative d.value) v
  fewest : ∀ d' : Decimal, RoundsTo (withSign negative d'.value) v → d.length ≤ d'.length
  nearest : ∀ (d' : Decimal) (a : ℚ), RoundsTo (withSign negative d'.value) v →
    d'.length = d.length → value? v = some a →
    |withSign negative d.value - a| ≤ |withSign negative d'.value - a|

section Shortest

variable {v : Float} {negative : Bool} {u : Nat} (hv : read v = .finite negative u)
include hv

/-- The decimals that are rounded to a double are those in its rounding interval. -/
lemma roundsTo_decimal_iff (d : Decimal) :
    RoundsTo (withSign negative d.value) v ↔ (Span.ofUnits u).Mem d.quarters := by
  have hone := one_pos_units
  have hx : 0 ≤ d.value * 2 ^ places := mul_nonneg d.value_nonneg hone.le
  have h := roundsTo_iff hv hx
  rwa [mul_div_cancel_right₀ _ hone.ne', nearest_iff_mem (isMagnitude_of_read hv) hx] at h

omit hv in
/-- The distance of a decimal from a double, in quarters of a unit. -/
lemma abs_decimal_sub (negative : Bool) (d : Decimal) (u : Nat) :
    |withSign negative d.value - withSign negative (u / 2 ^ places)| =
      |d.quarters - (Span.ofUnits u).middle| / (4 * 2 ^ places) := by
  have hone : (0 : ℚ) < 4 * 2 ^ places := mul_pos (by norm_num) one_pos_units
  have hscale : d.quarters - (Span.ofUnits u).middle =
      (d.value - u / 2 ^ places) * (4 * 2 ^ places) := by
    have hone := one_pos_units
    rw [Decimal.quarters, span_middle]
    generalize (2 : ℚ) ^ places = one at *
    push_cast
    field_simp
  rw [withSign_abs_sub, hscale, abs_mul, abs_of_pos hone, mul_div_cancel_right₀ _ hone.ne']

/-- **The decimal of a double that is not zero is a shortest one.** -/
theorem shortest_isShortest (hpos : 0 < u) : IsShortest negative (shortest u) v := by
  have hu := isMagnitude_of_read hv
  have hone := one_pos_units
  refine ⟨?_, fun d hd => ?_, fun d a hd hlength ha => ?_⟩
  · rw [roundsTo_decimal_iff hv]
    exact (hu.shortest_spec hpos).1.1
  · rw [roundsTo_decimal_iff hv] at hd
    exact (hu.shortest_fewest hpos hd).1
  · rw [roundsTo_decimal_iff hv] at hd
    rw [value?_of_read hv, Option.some.injEq] at ha
    rw [← ha, abs_decimal_sub, abs_decimal_sub]
    exact div_le_div_of_nonneg_right ((hu.shortest_fewest hpos hd).2 hlength) (by linarith)

/-- A shortest decimal has no zero at its end, since it could be left out. -/
lemma IsShortest.coefficient_mod (hpos : 0 < u) {d : Decimal} (hd : IsShortest negative d v) :
    d.coefficient % 10 ≠ 0 := by
  intro hzero
  have hmem := (roundsTo_decimal_iff hv d).mp hd.rounds
  have hcoefficient := (isMagnitude_of_read hv).coefficient_pos hpos hmem
  obtain ⟨c, hc⟩ := Nat.dvd_of_mod_eq_zero hzero
  have hvalue : (⟨c, d.exponent + 1⟩ : Decimal).value = d.value := by
    simp only [Decimal.value, hc]
    rw [zpow_add_one₀ (by norm_num)]
    push_cast
    ring
  have hfewest := hd.fewest ⟨c, d.exponent + 1⟩ (hvalue ▸ hd.rounds)
  have hlead := Decimal.pow_le_coefficient (d := ⟨c, d.exponent + 1⟩) (show 0 < c by omega)
  obtain ⟨k, hk⟩ := Nat.exists_eq_succ_of_ne_zero (Decimal.length_pos ⟨c, d.exponent + 1⟩).ne'
  rw [hk, Decimal.length_le_iff k.succ_pos, hc, pow_succ] at hfewest
  simp only [hk, Nat.succ_sub_one] at hlead
  omega

end Shortest

/-- If a shortest decimal is exact then every shortest decimal is. -/
lemma IsShortest.value_eq {v : Float} {negative : Bool} {d d' : Decimal}
    (hd : IsShortest negative d v) (hexact : value? v = some (withSign negative d.value))
    (hd' : IsShortest negative d' v) :
    d'.value = d.value := by
  have hlength : d.length = d'.length :=
    le_antisymm (hd.fewest d' hd'.rounds) (hd'.fewest d hd.rounds)
  have hnear := hd'.nearest d _ hd.rounds hlength hexact
  rw [sub_self, abs_zero, abs_nonpos_iff, sub_eq_zero, withSign_inj] at hnear
  exact hnear

end Aquarium.Number
