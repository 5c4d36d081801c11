import Aquarium.Pointer
import Mathlib.Tactic

/-!
# A pointer on a torus

A step on a torus with points lands on the torus, wherever it starts.  A jump lands on it too, if
the sizes are below `2 ^ 63`: the signed reading of a smaller number is the number itself.

A pointer that keeps its heading walks along a row or a column, and `ahead` is where it is after a
number of steps.  After as many steps as its line has cells it is back.

A step on the torus can be taken back by turning around (`advance_reversed_advance`), so it is a
bijection of the pointers on the torus, of which there are finitely many (`card_torus_le`).
-/

namespace Aquarium

namespace Pointer

/-- The position of the pointer is one of a torus of the given sizes. -/
def OnTorus (p : Pointer) (width height : Nat) : Prop :=
  0 ≤ p.x ∧ 0 ≤ p.y ∧ p.x < width ∧ p.y < height

/-- Below `2 ^ 63` the signed reading changes nothing. -/
lemma signed_of_lt {n : Nat} (h : n < 2 ^ 63) : signed n = n := by
  unfold signed
  apply Int.bmod_eq_of_le_mul_two
  · omega
  · omega

lemma wrap_nonneg {size : Nat} (h : 0 < size) (c : Int) : 0 ≤ wrap c size := by
  rw [wrap, if_neg (by omega)]
  exact Int.emod_nonneg c (by omega)

lemma wrap_lt {size : Nat} (h : 0 < size) (c : Int) : wrap c size < size := by
  rw [wrap, if_neg (by omega)]
  exact Int.emod_lt_of_pos c (by omega)

/-- A step lands on the torus, also when it starts outside. -/
lemma advance_onTorus {width height : Nat} (hw : 0 < width) (hh : 0 < height) (p : Pointer) :
    (p.advance width height).OnTorus width height :=
  ⟨wrap_nonneg hw _, wrap_nonneg hh _, wrap_lt hw _, wrap_lt hh _⟩

/-- What a successful jump does: it goes to a cell of the torus and keeps the heading. -/
lemma jump_eq_ok {p p' : Pointer} {x y : Float} {width height : Nat}
    (h : p.jump x y width height = .ok p') :
    ∃ column row, column < width ∧ row < height ∧
      p' = { p with x := signed column, y := signed row } := by
  unfold jump at h
  split at h
  · rename_i column row _ _
    split_ifs at h with hin
    exact ⟨column, row, hin.1, hin.2, (Except.ok.inj h).symm⟩
  · cases h

/-- A jump lands on the torus, because the sizes have a signed reading. -/
lemma jump_onTorus {p p' : Pointer} {x y : Float} {width height : Nat} (hw : width < 2 ^ 63)
    (hh : height < 2 ^ 63) (h : p.jump x y width height = .ok p') : p'.OnTorus width height := by
  obtain ⟨column, row, hc, hr, rfl⟩ := jump_eq_ok h
  simp only [OnTorus, signed_of_lt (lt_trans hc hw), signed_of_lt (lt_trans hr hh)]
  omega

lemma wrap_of_lt {size : Nat} {c : Int} (h0 : 0 ≤ c) (h : c < size) : wrap c size = c := by
  rw [wrap, if_neg (by omega), Int.emod_eq_of_lt h0 h]

/-- One place before the first is the last. -/
lemma wrap_neg_one {size : Nat} : wrap (-1) (size + 1 : Nat) = size := by
  rw [wrap, if_neg (by omega)]
  have hturn : (-1 : Int) = size - (size + 1 : Nat) := by omega
  rw [hturn, Int.sub_emod_right, Int.emod_eq_of_lt (by omega) (by omega)]

/-- The pointer on the cell of a column and a row. -/
def on (column row : Nat) (heading : Heading) : Pointer := ⟨column, row, heading⟩

/-- The first step enters the torus at its origin. -/
lemma advance_start {width height : Nat} (hw : 0 < width) (hh : 0 < height) :
    start.advance width height = on 0 0 .east := by
  simp only [advance, start, on, Heading.dx, Heading.dy]
  rw [wrap_of_lt (by omega) (by omega), wrap_of_lt (by omega) (by omega)]
  rfl

/-! Where no edge is in the way, a step leads to the neighbour. -/

section Neighbours

variable {width height x y : Nat}

lemma advance_on_east (hx : x + 1 < width) (hy : y < height) :
    (on x y .east).advance width height = on (x + 1) y .east := by
  simp only [advance, on, Heading.dx, Heading.dy, Int.add_zero]
  rw [wrap_of_lt (by omega) (by omega), wrap_of_lt (by omega) (by omega)]
  rfl

lemma advance_on_south (hx : x < width) (hy : y + 1 < height) :
    (on x y .south).advance width height = on x (y + 1) .south := by
  simp only [advance, on, Heading.dx, Heading.dy, Int.add_zero]
  rw [wrap_of_lt (by omega) (by omega), wrap_of_lt (by omega) (by omega)]
  rfl

lemma advance_on_west (hx : x < width) (hy : y < height) :
    (on (x + 1) y .west).advance width height = on x y .west := by
  simp only [advance, on, Heading.dx, Heading.dy, Int.add_zero, Nat.cast_add_one,
    Int.add_neg_cancel_right]
  rw [wrap_of_lt (by omega) (by omega), wrap_of_lt (by omega) (by omega)]

/-- From the first column a step to the west comes around to the last one. -/
lemma advance_on_first_west (hy : y < height) :
    (on 0 y .west).advance (x + 1 : Nat) height = on x y .west := by
  simp only [advance, on, Heading.dx, Heading.dy, Int.add_zero, Nat.cast_zero, Int.zero_add]
  rw [wrap_neg_one, wrap_of_lt (by omega) (by omega)]

end Neighbours

end Pointer

/-! ## Straight ahead -/

/-- The number of cells of the line along which a heading leads. -/
def Heading.lineLength (width height : Nat) : Heading → Nat
  | .east | .west => width
  | .north | .south => height

namespace Pointer

/-- The pointer on the `k`-th cell ahead. -/
def ahead (p : Pointer) (width height k : Nat) : Pointer :=
  { p with
    x := (p.x + k * p.heading.dx) % width
    y := (p.y + k * p.heading.dy) % height }

/-- Every cell ahead is on the torus, wherever the pointer is. -/
lemma ahead_onTorus {width height : Nat} (hw : 0 < width) (hh : 0 < height) (p : Pointer)
    (k : Nat) : (p.ahead width height k).OnTorus width height :=
  ⟨Int.emod_nonneg _ (by omega), Int.emod_nonneg _ (by omega), Int.emod_lt_of_pos _ (by omega),
    Int.emod_lt_of_pos _ (by omega)⟩

/-- Zero cells ahead is the cell of the pointer itself. -/
lemma ahead_zero {p : Pointer} {width height : Nat} (h : p.OnTorus width height) :
    p.ahead width height 0 = p := by
  obtain ⟨hx, hy, hxw, hyh⟩ := h
  simp only [ahead, Nat.cast_zero, zero_mul, add_zero, Int.emod_eq_of_lt hx hxw,
    Int.emod_eq_of_lt hy hyh]

/-- One more step of the pointer. -/
lemma advance_ahead {width height : Nat} (hw : 0 < width) (hh : 0 < height) (p : Pointer)
    (k : Nat) :
    (p.ahead width height k).advance width height = p.ahead width height (k + 1) := by
  simp only [advance, ahead, wrap, if_neg (show ¬ (width : Int) = 0 by omega),
    if_neg (show ¬ (height : Int) = 0 by omega), Int.emod_add_emod, Nat.cast_succ, add_mul, one_mul,
    add_assoc]

/-- Along a row the cells ahead are the next columns, up to the edge. -/
lemma ahead_on_east {width height x y k : Nat} (hx : x + k < width) (hy : y < height) :
    (on x y .east).ahead width height k = on (x + k) y .east := by
  simp only [ahead, on, Heading.dx, Heading.dy, mul_one, mul_zero, add_zero]
  rw [Int.emod_eq_of_lt (by omega) (by omega), Int.emod_eq_of_lt (by omega) (by omega)]
  rfl

/-- A line of the torus is closed. -/
lemma ahead_lineLength {p : Pointer} {width height : Nat} (h : p.OnTorus width height) :
    p.ahead width height (p.heading.lineLength width height) = p := by
  obtain ⟨hx, hy, hxw, hyh⟩ := h
  have hstay : p.x % width = p.x ∧ p.y % height = p.y :=
    ⟨Int.emod_eq_of_lt hx hxw, Int.emod_eq_of_lt hy hyh⟩
  obtain ⟨x, y, heading⟩ := p
  cases heading <;> simp [ahead, Heading.lineLength, Heading.dx, Heading.dy, hstay]

end Pointer

/-! ## Turning around -/

namespace Heading

lemma mem_all (h : Heading) : h ∈ all := by cases h <;> decide

@[simp] lemma reversed_reversed (h : Heading) : h.reversed.reversed = h := by cases h <;> rfl

@[simp] lemma dx_reversed (h : Heading) : h.reversed.dx = -h.dx := by cases h <;> rfl

@[simp] lemma dy_reversed (h : Heading) : h.reversed.dy = -h.dy := by cases h <;> rfl

end Heading

namespace Pointer

variable {width height : Nat}

/-- The pointer turned around on its place. -/
def reversed (p : Pointer) : Pointer := { p with heading := p.heading.reversed }

@[simp] lemma reversed_reversed (p : Pointer) : p.reversed.reversed = p := by
  simp [reversed]

lemma OnTorus.reversed {p : Pointer} (h : p.OnTorus width height) :
    p.reversed.OnTorus width height := h

/-- A way that was wrapped can be gone back. -/
lemma wrap_wrap_add_neg {size : Nat} {c : Int} (h0 : 0 ≤ c) (h : c < size) (d : Int) :
    wrap (wrap (c + d) size + -d) size = c := by
  simp only [wrap, if_neg (show ¬ (size : Int) = 0 by omega), Int.emod_add_emod,
    Int.add_neg_cancel_right, Int.emod_eq_of_lt h0 h]

/-- A step ahead, a turn and a step ahead lead back. -/
lemma advance_reversed_advance {p : Pointer} (h : p.OnTorus width height) :
    (p.advance width height).reversed.advance width height = p.reversed := by
  obtain ⟨hx, hy, hxw, hyh⟩ := h
  simp only [advance, reversed, Heading.dx_reversed, Heading.dy_reversed,
    wrap_wrap_add_neg hx hxw, wrap_wrap_add_neg hy hyh]

/-- All pointers on the torus. -/
def torus (width height : Nat) : Finset Pointer :=
  (Finset.range width ×ˢ Finset.range height ×ˢ Heading.all.toFinset).image
    fun place => on place.1 place.2.1 place.2.2

/-- These are the pointers on the torus. -/
lemma coe_torus (width height : Nat) :
    (torus width height : Set Pointer) = {p | p.OnTorus width height} := by
  ext p
  simp only [torus, Finset.mem_coe, Finset.mem_image, Finset.mem_product, Finset.mem_range,
    List.mem_toFinset, Set.mem_ofPred_eq]
  constructor
  · rintro ⟨⟨column, row, heading⟩, ⟨hcolumn, hrow, -⟩, rfl⟩
    exact ⟨Int.natCast_nonneg _, Int.natCast_nonneg _, Int.ofNat_lt.mpr hcolumn,
      Int.ofNat_lt.mpr hrow⟩
  · rintro ⟨hx, hy, hxw, hyh⟩
    have hcolumn : p.x.toNat < width := by omega
    have hrow : p.y.toNat < height := by omega
    refine ⟨⟨p.x.toNat, p.y.toNat, p.heading⟩, ⟨hcolumn, hrow, Heading.mem_all _⟩, ?_⟩
    simp only [on, Int.toNat_of_nonneg hx, Int.toNat_of_nonneg hy]

/-- There is a pointer for each heading on each cell. -/
lemma card_torus_le (width height : Nat) : (torus width height).card ≤ 4 * width * height := by
  have hheadings : Heading.all.toFinset.card = 4 := rfl
  refine Finset.card_image_le.trans (le_of_eq ?_)
  rw [Finset.card_product, Finset.card_product, Finset.card_range, Finset.card_range, hheadings]
  ring

/-- **A step is a bijection of the torus.** -/
lemma bijOn_advance (hw : 0 < width) (hh : 0 < height) :
    Set.BijOn (fun p : Pointer => p.advance width height) {p | p.OnTorus width height}
      {p | p.OnTorus width height} := by
  have hinverse : Set.InvOn (fun p : Pointer => (p.reversed.advance width height).reversed)
      (fun p => p.advance width height) {p | p.OnTorus width height}
      {p | p.OnTorus width height} := by
    constructor
    · intro p hp
      simp only [advance_reversed_advance hp, reversed_reversed]
    · intro p hp
      have hback := advance_reversed_advance (OnTorus.reversed hp)
      simpa only [reversed_reversed] using hback
  refine hinverse.bijOn ?_ ?_
  · exact fun p _ => advance_onTorus hw hh p
  · exact fun p _ => (advance_onTorus hw hh p.reversed).reversed

end Pointer

end Aquarium
