import Aquarium.Proofs.Pointer.Torus

/-!
# Many steps of a pointer

A pointer that only advances keeps its heading, so each of its coordinates walks around a circle of
its own (`iterate_advance`).  Wrapping at every step of such a walk comes to the same as going all
the way and wrapping once (`iterate_wrap_add`), because a remainder may be taken before a sum or
after it.  A circle without points wraps nothing, and this fits in: the remainder by zero is the
number itself.

The sizes of a torus are words of 64 bits.  Below `2 ^ 63` they are read as they are
(`advanceWords_of_lt`), and then no step from a point of the torus leaves the range of signed words
(`isSigned_add_of_lt`).
-/

namespace Aquarium

/-- The number is one of the signed words of 64 bits. -/
def IsSigned (n : Int) : Prop := -2 ^ 63 ≤ n ∧ n < 2 ^ 63

namespace Heading

lemma dx_mem_Icc (h : Heading) : h.dx ∈ Set.Icc (-1) 1 := by cases h <;> decide

lemma dy_mem_Icc (h : Heading) : h.dy ∈ Set.Icc (-1) 1 := by cases h <;> decide

lemma lineLength_pos {width height : Nat} (hw : 0 < width) (hh : 0 < height) (h : Heading) :
    0 < h.lineLength width height := by
  cases h <;> assumption

end Heading

namespace Pointer

variable {width height : Nat}

/-! ## Walks around a circle -/

lemma wrap_eq_emod (c size : Int) : wrap c size = c % size := by
  unfold wrap
  split_ifs with h
  · rw [h, Int.emod_zero]
  · rfl

/-- **It is enough to wrap once.** -/
lemma iterate_wrap_add (c d size : Int) (k : Nat) :
    (fun c => wrap (c + d) size)^[k + 1] c = (c + (k + 1 : Nat) * d) % size := by
  induction k with
  | zero => simp [wrap_eq_emod]
  | succ k ih =>
      rw [Function.iterate_succ_apply', ih, wrap_eq_emod, Int.emod_add_emod, add_assoc,
        ← add_one_mul, ← Nat.cast_succ]

/-- A step of one unit from a point of a circle does not overflow. -/
lemma isSigned_add_of_lt {size : Nat} (hsize : size < 2 ^ 63) {c d : Int} (h0 : 0 ≤ c)
    (h : c < size) (hd : d ∈ Set.Icc (-1) 1) : IsSigned (c + d) := by
  obtain ⟨hlow, hhigh⟩ := hd
  exact ⟨by omega, by omega⟩

/-! ## Walks on the torus -/

lemma advanceWords_of_lt (hw : width < 2 ^ 63) (hh : height < 2 ^ 63) (p : Pointer) :
    p.advanceWords width height = p.advance width height := by
  rw [advanceWords, signed_of_lt hw, signed_of_lt hh]

/-- The two coordinates do not meet. -/
lemma iterate_advance (p : Pointer) (width height : Int) (k : Nat) :
    (fun q : Pointer => q.advance width height)^[k] p =
      { p with
        x := (fun c => wrap (c + p.heading.dx) width)^[k] p.x
        y := (fun c => wrap (c + p.heading.dy) height)^[k] p.y } := by
  induction k with
  | zero => rfl
  | succ k ih =>
      rw [Function.iterate_succ_apply', ih, Function.iterate_succ_apply',
        Function.iterate_succ_apply']
      rfl

/-- The pointer after some steps is on the cell that lies as many cells ahead. -/
lemma iterate_advance_eq_ahead (p : Pointer) {k : Nat} (hk : 1 ≤ k) :
    (fun q : Pointer => q.advance width height)^[k] p = p.ahead width height k := by
  obtain ⟨j, rfl⟩ := Nat.exists_eq_add_of_le' hk
  rw [iterate_advance, iterate_wrap_add, iterate_wrap_add]
  rfl

/-- **A pointer travels along a line.**  Let a pointer advance any number of times, at least once,
on a torus with sizes below `2 ^ 63`.  It keeps its heading.  Along a dimension with cells it has
moved by as many units as it has advanced, up to a remainder that is never negative; so its
coordinate is one of the torus, wherever it started, and its next step does not overflow a signed
word.  Along a dimension without cells it has moved without wrapping.  A pointer that starts on the
torus is back after as many steps as its line has cells, and a step, a turn around and one more step
lead back to its place. -/
theorem travels_along_line (p : Pointer) (hw : width < 2 ^ 63) (hh : height < 2 ^ 63) {k : Nat}
    (hk : 1 ≤ k) :
    let go : Pointer → Pointer := fun q => q.advanceWords width height
    (go^[k] p).heading = p.heading ∧
      (0 < width →
        (go^[k] p).x = (p.x + k * p.heading.dx) % width ∧
          0 ≤ (go^[k] p).x ∧ (go^[k] p).x < width ∧ IsSigned ((go^[k] p).x + p.heading.dx)) ∧
      (0 < height →
        (go^[k] p).y = (p.y + k * p.heading.dy) % height ∧
          0 ≤ (go^[k] p).y ∧ (go^[k] p).y < height ∧ IsSigned ((go^[k] p).y + p.heading.dy)) ∧
      (width = 0 → (go^[k] p).x = p.x + k * p.heading.dx) ∧
      (height = 0 → (go^[k] p).y = p.y + k * p.heading.dy) ∧
      (p.OnTorus width height →
        go^[p.heading.lineLength width height] p = p ∧ go (go p).reversed = p.reversed) := by
  intro go
  have hgo : go = fun q => q.advance width height := funext (advanceWords_of_lt hw hh)
  rw [hgo, iterate_advance_eq_ahead p hk]
  refine ⟨rfl, fun hpos => ?_, fun hpos => ?_, ?_, ?_, fun hp => ⟨?_, advance_reversed_advance hp⟩⟩
  · have hnonneg : 0 ≤ (p.ahead width height k).x := Int.emod_nonneg _ (by omega)
    have hlt : (p.ahead width height k).x < width := Int.emod_lt_of_pos _ (by omega)
    exact ⟨rfl, hnonneg, hlt, isSigned_add_of_lt hw hnonneg hlt p.heading.dx_mem_Icc⟩
  · have hnonneg : 0 ≤ (p.ahead width height k).y := Int.emod_nonneg _ (by omega)
    have hlt : (p.ahead width height k).y < height := Int.emod_lt_of_pos _ (by omega)
    exact ⟨rfl, hnonneg, hlt, isSigned_add_of_lt hh hnonneg hlt p.heading.dy_mem_Icc⟩
  · rintro rfl
    exact Int.emod_zero _
  · rintro rfl
    exact Int.emod_zero _
  · obtain ⟨hx, hy, hxw, hyh⟩ := hp
    have hline := p.heading.lineLength_pos (show 0 < width by omega) (show 0 < height by omega)
    rw [iterate_advance_eq_ahead p hline, ahead_lineLength ⟨hx, hy, hxw, hyh⟩]

/-- Five steps to the west from far outside, on three columns and no rows; and a way around three
columns from inside. -/
theorem travels_along_line_from_outside :
    let go (height : Nat) : Pointer → Pointer := fun q => q.advanceWords 3 height
    ((go 0)^[5] ⟨-7, 12, .west⟩).x = 0 ∧ ((go 0)^[5] ⟨-7, 12, .west⟩).y = 12 ∧
      (go 2)^[3] ⟨1, 0, .east⟩ = ⟨1, 0, .east⟩ := by
  intro go
  obtain ⟨-, hcolumn, -, -, hrow, -⟩ :=
    travels_along_line ⟨-7, 12, .west⟩ (show 3 < 2 ^ 63 by decide) (show 0 < 2 ^ 63 by decide)
      (show 1 ≤ 5 by decide)
  obtain ⟨-, -, -, -, -, hround⟩ :=
    travels_along_line ⟨1, 0, .east⟩ (show 3 < 2 ^ 63 by decide) (show 2 < 2 ^ 63 by decide) le_rfl
  exact ⟨(hcolumn (by decide)).1.trans (by decide), (hrow rfl).trans (by decide),
    (hround ⟨by decide, by decide, by decide, by decide⟩).1⟩

end Pointer

end Aquarium
