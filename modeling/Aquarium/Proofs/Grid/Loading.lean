import Aquarium.Proofs.Grid.Memory
import Aquarium.Proofs.Number.Exact
import Aquarium.Proofs.Text.Lines

/-!
# What a grid shows of its lines

A grid is loaded from lines, and afterwards short lines cannot be told from lines with blanks at
their end.  That is all that is lost: `Holds` lists what a grid shows of its lines, a grid loaded
from lines holds them (`holds_ofLines`), and lines that are loaded to the same grid agree in every
column, where a line that is too short counts as blank (`getD_eq_of_ofLines_eq`).

A carriage return at the end of a line is therefore visible in the grid, and dropping it is not a
matter of taste (`ofLines_dropReturn_iff`).  This decides what the removal of a final line ending
does to a grid.  It takes away a blank row, unless it takes the carriage return of a longer line
ending as well, so that loading takes another one.
-/

namespace Aquarium

namespace Grid

/-! ## The longest line -/

lemma isGreatest_widest {ls : List (List Char)} (hne : ls ≠ []) :
    IsGreatest {n | ∃ chars ∈ ls, chars.length = n} (widest ls) := by
  have hfold : widest ls = ((ls.map List.length).max?).getD 0 := by
    rw [widest, ← List.foldl_map (g := max), List.foldl_max, Nat.zero_max]
  obtain ⟨n, hn⟩ : ∃ n, (ls.map List.length).max? = some n :=
    Option.ne_none_iff_exists'.mp (by simpa [List.max?_eq_none_iff] using hne)
  obtain ⟨hmem, hbound⟩ := List.max?_eq_some_iff.mp hn
  rw [hfold, hn, Option.getD_some]
  refine ⟨List.mem_map.mp hmem, ?_⟩
  rintro k ⟨chars, hchars, rfl⟩
  exact hbound _ (List.mem_map_of_mem hchars)

lemma widest_of_forall_length {ls : List (List Char)} {width : Nat} (hne : ls ≠ [])
    (h : ∀ chars ∈ ls, chars.length = width) : widest ls = width := by
  obtain ⟨⟨chars, hchars, hlength⟩, -⟩ := isGreatest_widest hne
  rw [← hlength, h chars hchars]

lemma widest_concat_nil (ls : List (List Char)) : widest (ls ++ [[]]) = widest ls := by
  simp [widest]

/-! ## Rows and cells -/

/-- The cells of a row are the characters of its line, filled up with blanks. -/
lemma rowCells_eq_map (width : Nat) (chars : List Char) :
    rowCells width chars = (chars.rightpad width padding).map Number.ofChar := by
  simp [rowCells, List.rightpad]

lemma getElem?_cells_ofLines {ls : List (List Char)} {row column : Nat} {chars : List Char}
    (hrow : ls[row]? = some chars) (hc : column < widest ls) :
    (ofLines ls).cells[row * widest ls + column]? =
      some (Number.ofChar (chars[column]?.getD padding)) := by
  have hcells : (ofLines ls).cells[row * widest ls + column]? =
      (ls.flatMap (rowCells (widest ls)))[row * widest ls + column]? := List.getElem?_toArray
  rw [hcells, getElem?_flatMap_rowCells (fun _ h => length_le_widest h) hc, hrow, Option.bind_some,
    getElem?_rowCells hc, Option.getD_map]

/-- A place of the program extent shows the character of its line, or a blank. -/
lemma cell?_ofLines {ls : List (List Char)} {row column : Nat} {chars : List Char}
    (hrow : ls[row]? = some chars) (hc : column < widest ls) :
    (ofLines ls).cell? column row = some (Number.ofChar (chars[column]?.getD padding)) := by
  have hr : row < ls.length := (List.getElem?_eq_some_iff.mp hrow).1
  have hcovers : (ofLines ls).Covers column row :=
    ⟨Int.natCast_nonneg _, Int.natCast_nonneg _, Int.ofNat_lt.mpr hc, Int.ofNat_lt.mpr hr⟩
  exact (if_pos hcovers).trans (getElem?_cells_ofLines hrow hc)

lemma get_ofLines {ls : List (List Char)} {row column : Nat} {chars : List Char}
    (hrow : ls[row]? = some chars) (hc : column < widest ls) :
    (ofLines ls).get column row = Number.ofChar (chars[column]?.getD padding) := by
  have hr : row < ls.length := (List.getElem?_eq_some_iff.mp hrow).1
  rw [get, if_pos (inProgram_iff.mpr ⟨hc, hr⟩)]
  exact congrArg (Option.getD · (Number.ofNat 0)) (getElem?_cells_ofLines hrow hc)

/-- The grid shows these lines, one in each row, and has nothing else. -/
structure Holds (g : Grid) (ls : List (List Char)) : Prop where
  height_eq : g.height = ls.length
  isGreatest_width : IsGreatest {n | ∃ chars ∈ ls, chars.length = n} g.width
  outliers_eq : g.outliers = []
  /-- A cell has the code point of its character, and that of a blank where the line is too
  short. -/
  isChar_cell : ∀ (row column : Nat) (chars : List Char), ls[row]? = some chars →
    column < g.width → ∃ v, g.cell? column row = some v ∧ Number.IsChar v (chars[column]?.getD ' ')

/-- **A grid holds the lines it is loaded from.** -/
lemma holds_ofLines {ls : List (List Char)} (hne : ls ≠ []) : (ofLines ls).Holds ls where
  height_eq := rfl
  isGreatest_width := isGreatest_widest hne
  outliers_eq := rfl
  isChar_cell _ _ _ hrow hc := ⟨_, cell?_ofLines hrow hc, Number.isChar_ofChar _⟩

/-! ## Lines that are loaded to the same grid -/

/-- Lines of the same grid agree in all columns. -/
lemma getD_eq_of_ofLines_eq {ls ls' : List (List Char)} (h : ofLines ls = ofLines ls')
    {row column : Nat} {chars chars' : List Char} (hrow : ls[row]? = some chars)
    (hrow' : ls'[row]? = some chars') (hc : column < widest ls) :
    chars[column]?.getD padding = chars'[column]?.getD padding := by
  have hwidth : widest ls = widest ls' := congrArg Grid.width h
  have hcell := cell?_ofLines hrow hc
  rw [h, cell?_ofLines hrow' (hwidth ▸ hc)] at hcell
  exact (Number.ofChar_injective (Option.some_inj.mp hcell)).symm

/-- The grid does not show whether lines were filled up with blanks before. -/
lemma ofLines_map_rightpad {ls : List (List Char)} (hne : ls ≠ []) :
    ofLines (ls.map (List.rightpad (widest ls) padding)) = ofLines ls := by
  have hlength : ∀ chars ∈ ls.map (List.rightpad (widest ls) padding),
      chars.length = widest ls := by
    simp only [List.mem_map]
    rintro _ ⟨chars, hchars, rfl⟩
    rw [List.length_rightpad, Nat.max_eq_left (length_le_widest hchars)]
  have hwidth : widest (ls.map (List.rightpad (widest ls) padding)) = widest ls :=
    widest_of_forall_length (by simpa using hne) hlength
  have hrows : (ls.map (List.rightpad (widest ls) padding)).flatMap (rowCells (widest ls)) =
      ls.flatMap (rowCells (widest ls)) := by
    rw [List.flatMap_map]
    refine List.flatMap_congr fun chars hchars => ?_
    have hfilled : (chars.rightpad (widest ls) padding).rightpad (widest ls) padding =
        chars.rightpad (widest ls) padding := by
      have hfits := length_le_widest hchars
      simp [List.rightpad, Nat.add_sub_cancel' hfits]
    rw [rowCells_eq_map, rowCells_eq_map, hfilled]
  simp only [ofLines, hwidth, hrows, List.length_map]

/-- A carriage return at the end of the last line is visible. -/
lemma ofLines_dropReturn_iff (before : List (List Char)) (last : List Char) :
    ofLines (before ++ [Text.dropReturn last]) = ofLines (before ++ [last]) ↔
      last.getLast? ≠ some '\r' := by
  constructor
  · intro h hlast
    obtain ⟨start, rfl⟩ := List.getLast?_eq_some_iff.mp hlast
    rw [Text.dropReturn_concat_return] at h
    have hrow (chars : List Char) : (before ++ [chars])[before.length]? = some chars := by simp
    have hfits : start.length < widest (before ++ [start ++ ['\r']]) := by
      have hmem : start ++ ['\r'] ∈ before ++ [start ++ ['\r']] := by simp
      simpa using length_le_widest hmem
    have hchar := getD_eq_of_ofLines_eq h.symm (hrow _) (hrow _) hfits
    simp [padding] at hchar
  · intro hlast
    rw [Text.dropReturn_of_ne hlast]

/-! ## Without the last row -/

/-- The grid without its last row: as wide as before, one row less, and the cells of the rows that
are left. -/
def withoutLastRow (g : Grid) : Grid :=
  { g with height := g.height - 1, cells := g.cells.take ((g.height - 1) * g.width) }

/-- An empty line at the end makes a row of its own and changes no other. -/
lemma withoutLastRow_ofLines_concat_nil (ls : List (List Char)) :
    (ofLines (ls ++ [[]])).withoutLastRow = ofLines ls := by
  have hfilled : (ls.flatMap (rowCells (widest ls))).length = ls.length * widest ls := by
    rw [Nat.mul_comm]
    exact filled_ofLines ls
  simp only [withoutLastRow, ofLines, widest_concat_nil, List.length_append, List.length_singleton,
    Nat.add_sub_cancel, List.take_toArray, List.flatMap_append, List.take_left' hfilled]

/-- **A final line ending makes a blank row.**  The grid of a text that ends in a newline has a last
row of blanks.  Without the line ending at its end the text is loaded to the same grid without
this row, if and only if the text does not end in two carriage returns and a newline.  A text that
does not end in a newline has no line ending to lose. -/
theorem final_line_end_makes_blank_row (t : String) :
    (['\n'] <:+ t.toList →
      (∀ column : Nat, column < (ofSource t).width →
        ∃ v, (ofSource t).cell? column ((ofSource t).height - 1) = some v ∧
          Number.IsChar v ' ') ∧
      (ofSource (Text.stripLineEnd t) = (ofSource t).withoutLastRow ↔
        ¬ ['\r', '\r', '\n'] <:+ t.toList)) ∧
    (¬ ['\n'] <:+ t.toList → Text.stripLineEnd t = t) := by
  refine ⟨fun hend => ?_, Text.stripLineEnd_of_not_suffix⟩
  obtain ⟨before, last, hlines, hstripped, hsuffix⟩ := Text.exists_lines_stripLineEnd hend
  have hg : ofSource t = ofLines (before ++ [last] ++ [[]]) := congrArg ofLines hlines
  constructor
  · intro column hc
    rw [hg] at hc ⊢
    have hheight : ((ofLines (before ++ [last] ++ [[]])).height : Int) - 1 =
        ((before ++ [last]).length : Nat) := by
      simp only [ofLines, List.length_append, List.length_singleton]
      omega
    rw [hheight]
    exact (holds_ofLines (by simp)).isChar_cell _ _ [] (by simp) hc
  · rw [hg, withoutLastRow_ofLines_concat_nil, ofSource, hstripped, ofLines_dropReturn_iff,
      ← hsuffix]

/-- A carriage return and a newline go together.  Of two carriage returns the second one goes with
the newline, and the first one then goes in loading. -/
theorem final_line_end_makes_blank_row_two_returns :
    ofSource (Text.stripLineEnd "ab\nc\r\n") = (ofSource "ab\nc\r\n").withoutLastRow ∧
      (∃ v, (ofSource "ab\nc\r\n").cell? 1 2 = some v ∧ Number.IsChar v ' ') ∧
      ofSource (Text.stripLineEnd "ab\nc\r\r\n") ≠ (ofSource "ab\nc\r\r\n").withoutLastRow ∧
      Text.stripLineEnd "ab\nc\r" = "ab\nc\r" := by
  obtain ⟨hblank, hequal⟩ := (final_line_end_makes_blank_row "ab\nc\r\n").1 (by decide)
  obtain ⟨-, hdiffer⟩ := (final_line_end_makes_blank_row "ab\nc\r\r\n").1 (by decide)
  refine ⟨hequal.mpr (by decide), hblank 1 (by decide), ?_, ?_⟩
  · exact fun h => hdiffer.mp h (by decide)
  · exact (final_line_end_makes_blank_row "ab\nc\r").2 (by decide)

end Grid

end Aquarium
