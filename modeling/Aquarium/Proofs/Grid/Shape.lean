import Aquarium.Grid
import Mathlib.Tactic

/-!
# The shape of a grid

The cells of a grid are one array, and a place of the program extent is found in it by counting
rows.  That works as long as the array has a cell for every place (`Grid.Filled`).  Loading
fills the grid and no write changes its sizes or the number of its cells, so a grid stays filled.

On a filled grid a position has a cell exactly if the program extent covers it
(`cell?_isSome_iff`).
-/

namespace Aquarium

namespace Grid

/-- There is a cell for every place of the program extent. -/
def Filled (g : Grid) : Prop := g.cells.size = g.width * g.height

/-- Whether a position of a pointer lies in the program extent. -/
def Covers (g : Grid) (x y : Int) : Prop := 0 ≤ x ∧ 0 ≤ y ∧ x < g.width ∧ y < g.height

/-! ## Loading -/

/-- The maximum of the lengths is at least what it starts from and at least each length. -/
lemma le_foldl_length (lines : List (List Char)) : ∀ w : Nat,
    w ≤ lines.foldl (fun w line => max w line.length) w ∧
      ∀ line ∈ lines, line.length ≤ lines.foldl (fun w line => max w line.length) w := by
  induction lines with
  | nil => intro w; simp
  | cons first rest ih =>
      intro w
      obtain ⟨hstart, hrest⟩ := ih (max w first.length)
      rw [List.foldl_cons]
      refine ⟨le_trans (le_max_left _ _) hstart, ?_⟩
      intro line hline
      rcases List.mem_cons.mp hline with rfl | hline
      · exact le_trans (le_max_right _ _) hstart
      · exact hrest line hline

lemma length_le_widest {lines : List (List Char)} {line : List Char} (h : line ∈ lines) :
    line.length ≤ widest lines :=
  (le_foldl_length lines 0).2 line h

/-- A line that fits is filled up to the width exactly. -/
lemma length_rowCells {width : Nat} {line : List Char} (h : line.length ≤ width) :
    (rowCells width line).length = width := by
  simp only [rowCells, List.length_append, List.length_map, List.length_replicate]
  omega

/-- Every row has the width of the widest line, so the cells fill the rectangle. -/
lemma filled_ofLines (lines : List (List Char)) : (ofLines lines).Filled := by
  have hrow : ∀ line ∈ lines, (rowCells (widest lines) line).length = widest lines :=
    fun line h => length_rowCells (length_le_widest h)
  simp only [Filled, ofLines, List.size_toArray, List.length_flatMap]
  rw [List.map_congr_left hrow, List.map_const', List.sum_replicate, smul_eq_mul, Nat.mul_comm]

lemma filled_ofSource (source : String) : (ofSource source).Filled := filled_ofLines _

lemma splitLines_ne_nil (cs : List Char) : Text.splitLines cs ≠ [] := by
  cases cs with
  | nil => simp [Text.splitLines]
  | cons c cs =>
      rw [Text.splitLines]
      split_ifs
      · simp
      · cases Text.splitLines cs <;> simp

/-- Even the empty text has one line. -/
lemma height_ofSource_pos (source : String) : 0 < (ofSource source).height := by
  simp only [ofSource, ofLines, Text.lines, List.length_map]
  exact List.length_pos_of_ne_nil (splitLines_ne_nil _)

/-! ## Writing -/

@[simp] lemma width_set (g : Grid) (column row : Nat) (v : Float) :
    (g.set column row v).width = g.width := by
  unfold set; split_ifs <;> rfl

@[simp] lemma height_set (g : Grid) (column row : Nat) (v : Float) :
    (g.set column row v).height = g.height := by
  unfold set; split_ifs <;> rfl

lemma Filled.set {g : Grid} (h : g.Filled) (column row : Nat) (v : Float) :
    (g.set column row v).Filled := by
  unfold Grid.set
  split_ifs
  · simpa only [Filled, Array.size_setIfInBounds] using h
  · exact h

/-- A successful write is a change of one place. -/
lemma exists_set_of_write {g g' : Grid} {x y v : Float} (h : g.write x y v = .ok g') :
    ∃ column row, g' = g.set column row v := by
  unfold write at h
  split at h
  · rename_i column row _ _
    cases h
    exact ⟨column, row, rfl⟩
  · cases h

/-! ## Reading -/

/-- The place in the array of a covered position. -/
lemma index_lt_size {g : Grid} (hf : g.Filled) {column row : Nat} (hc : column < g.width)
    (hr : row < g.height) : row * g.width + column < g.cells.size := by
  rw [hf]
  calc row * g.width + column
      < row * g.width + g.width := Nat.add_lt_add_left hc _
    _ = (row + 1) * g.width := (Nat.succ_mul _ _).symm
    _ ≤ g.height * g.width := Nat.mul_le_mul_right _ hr
    _ = g.width * g.height := Nat.mul_comm _ _

lemma covers_of_cell? {g : Grid} {x y : Int} {v : Float} (h : g.cell? x y = some v) :
    g.Covers x y := by
  unfold cell? at h
  split_ifs at h with hxy
  exact hxy

/-- A filled grid has a cell at the positions it covers and nowhere else. -/
lemma cell?_isSome_iff {g : Grid} (hf : g.Filled) (x y : Int) :
    (g.cell? x y).isSome ↔ g.Covers x y := by
  constructor
  · intro h
    obtain ⟨v, hv⟩ := Option.isSome_iff_exists.mp h
    exact covers_of_cell? hv
  · intro hxy
    obtain ⟨hx, hy, hxw, hyh⟩ := hxy
    have hlt : y.toNat * g.width + x.toNat < g.cells.size :=
      index_lt_size hf (by omega) (by omega)
    rw [cell?, if_pos ⟨hx, hy, hxw, hyh⟩]
    simp [hlt]

end Grid

end Aquarium
