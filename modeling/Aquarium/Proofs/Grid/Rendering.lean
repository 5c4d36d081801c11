import Aquarium.Proofs.Grid.Loading

/-!
# Loading what was drawn

The text of a grid is meant for the eye, but it can be loaded again.  A row is drawn with all its
blanks, so its line comes back as long as the grid is wide.  Two things can go wrong on the way:
null characters are drawn as blanks (`drawn`), and a carriage return in the last column is taken
for a part of the line ending.  `reloaded` is the line that a row comes back as, and
`getElem?_reloaded` says what has become of each of its characters.

Nothing else can go wrong.  The grid comes back as it was if and only if all its characters do
(`ofLines_map_reloaded_iff`): none is a null character, and none is a carriage return in the last
column (`ComesBack`).
-/

namespace Aquarium

namespace Grid

/-! ## Drawing -/

/-- How a character is drawn. -/
def drawn (c : Char) : Char := if c = '\x00' then padding else c

lemma glyph_ofChar (c : Char) : glyph (Number.ofChar c) = drawn c := by
  simp [glyph, drawn]

lemma drawn_eq_return_iff {c : Char} : drawn c = '\r' ↔ c = '\r' := by
  unfold drawn
  split_ifs with h
  · simp [h, padding]
  · rfl

lemma drawn_ne_newline {c : Char} (h : c ≠ '\n') : drawn c ≠ '\n' := by
  unfold drawn
  split_ifs
  · simp [padding]
  · exact h

/-- A line that is filled up has a character in every column. -/
lemma rightpad_eq_map_range {width : Nat} {chars : List Char} (h : chars.length ≤ width) :
    chars.rightpad width padding =
      (List.range width).map fun column => chars[column]?.getD padding := by
  refine List.ext_getElem? fun column => ?_
  rw [List.getElem?_map, List.rightpad]
  rcases Nat.lt_or_ge column chars.length with hin | hout
  · rw [List.getElem?_append_left hin, List.getElem?_range (by omega), Option.map_some,
      List.getElem?_eq_getElem hin, Option.getD_some]
  · rw [List.getElem?_append_right hout, List.getElem?_replicate]
    rcases Nat.lt_or_ge column width with hc | hc
    · rw [if_pos (by omega), List.getElem?_range hc, Option.map_some, List.getElem?_eq_none hout,
        Option.getD_none]
    · rw [if_neg (by omega), List.getElem?_eq_none (by simpa using hc)]
      rfl

/-- The rows of a loaded grid are its lines, filled up and drawn. -/
lemma rows_ofLines (ls : List (List Char)) :
    (ofLines ls).rows =
      ls.map fun chars => String.ofList ((chars.rightpad (widest ls) padding).map drawn) := by
  refine List.ext_getElem (by simp [rows, ofLines]) fun row _ hrow => ?_
  have hr : row < ls.length := by simpa using hrow
  simp only [rows, List.getElem_map, List.getElem_range]
  rw [rightpad_eq_map_range (length_le_widest (List.getElem_mem hr)), List.map_map]
  refine congrArg String.ofList (List.map_congr_left fun column hcolumn => ?_)
  rw [get_ofLines (List.getElem?_eq_getElem hr) (List.mem_range.mp hcolumn), glyph_ofChar]
  rfl

/-! ## Loading again -/

/-- The line that a row comes back as, when it is drawn and loaded. -/
def reloaded (width : Nat) (chars : List Char) : List Char :=
  Text.dropReturn ((chars.rightpad width padding).map drawn)

/-- In every column the character comes back as it was drawn, but for a carriage return in the
last one. -/
lemma getElem?_reloaded {width column : Nat} {chars : List Char} (h : chars.length ≤ width)
    (hc : column < width) :
    (reloaded width chars)[column]? =
      if column + 1 = width ∧ chars[column]?.getD padding = '\r' then none
      else some (drawn (chars[column]?.getD padding)) := by
  rw [reloaded, rightpad_eq_map_range h, Text.getElem?_dropReturn]
  simp only [List.map_map, List.length_map, List.length_range, List.getElem?_map,
    List.getElem?_range hc, Option.map_some, Function.comp_apply, Option.some.injEq,
    drawn_eq_return_iff]

lemma newline_not_mem_map_drawn {width : Nat} {chars : List Char} (h : '\n' ∉ chars) :
    '\n' ∉ (chars.rightpad width padding).map drawn := by
  rw [List.mem_map]
  rintro ⟨c, hc, hdrawn⟩
  refine drawn_ne_newline ?_ hdrawn
  rintro rfl
  rcases List.mem_append.mp hc with hc | hc
  · exact h hc
  · exact absurd (List.eq_of_mem_replicate hc) (by decide)

/-- The text of a loaded grid is read as its rows. -/
lemma lines_text_ofLines {ls : List (List Char)} (hne : ls ≠ [])
    (hlines : ∀ chars ∈ ls, '\n' ∉ chars) :
    Text.lines (ofLines ls).text = ls.map (reloaded (widest ls)) := by
  have hnone : (ofLines ls).outliers = [] := rfl
  have htext : (ofLines ls).text.toList = ['\n'].intercalate
      (ls.map fun chars => (chars.rightpad (widest ls) padding).map drawn) := by
    rw [text, hnone, List.map_nil, List.append_nil, String.toList_intercalate, rows_ofLines,
      List.map_map]
    simp [Function.comp_def]
  rw [Text.lines, htext, Text.splitLines_intercalate (by simpa using hne), List.map_map]
  · rfl
  · intro line hline
    obtain ⟨chars, hchars, rfl⟩ := List.mem_map.mp hline
    exact newline_not_mem_map_drawn (hlines chars hchars)

/-- A character comes back from a column: it is no null character, and no carriage return in the
last one. -/
def ComesBack (width : Nat) (column : Int) (c : Char) : Prop :=
  c ≠ '\x00' ∧ (column + 1 = width → c ≠ '\r')

/-- A line comes back, filled up, if all its characters do. -/
lemma reloaded_eq_rightpad {width : Nat} {chars : List Char} (h : chars.length ≤ width)
    (hback : ∀ column < width, ComesBack width column (chars[column]?.getD padding)) :
    reloaded width chars = chars.rightpad width padding := by
  have hrow : (chars.rightpad width padding).map drawn = chars.rightpad width padding := by
    rw [rightpad_eq_map_range h, List.map_map]
    refine List.map_congr_left fun column hcolumn => ?_
    exact if_neg (hback column (List.mem_range.mp hcolumn)).1
  rw [reloaded, hrow]
  refine Text.dropReturn_of_ne ?_
  rw [rightpad_eq_map_range h, List.getLast?_map, List.getLast?_range]
  split_ifs with hwidth
  · simp
  · have hlast := (hback (width - 1) (by omega)).2 (by omega)
    simpa using hlast

/-- The grid comes back if and only if all characters do, blanks included. -/
lemma ofLines_map_reloaded_iff {ls : List (List Char)} (hne : ls ≠ []) :
    ofLines (ls.map (reloaded (widest ls))) = ofLines ls ↔
      ∀ chars ∈ ls, ∀ column < widest ls,
        ComesBack (widest ls) column (chars[column]?.getD padding) := by
  constructor
  · intro h chars hchars column hc
    obtain ⟨row, hrow⟩ := List.mem_iff_getElem?.mp hchars
    have hrow' : (ls.map (reloaded (widest ls)))[row]? = some (reloaded (widest ls) chars) := by
      rw [List.getElem?_map, hrow]
      rfl
    have hchar := getD_eq_of_ofLines_eq h.symm hrow hrow' hc
    rw [getElem?_reloaded (length_le_widest hchars) hc] at hchar
    -- A null character comes back as a blank, and so does a carriage return that was taken off.
    constructor
    · intro hnull
      rw [hnull, if_neg (by simp)] at hchar
      exact absurd hchar (by decide)
    · intro hlast hreturn
      rw [hreturn, if_pos ⟨by omega, rfl⟩] at hchar
      exact absurd hchar (by decide)
  · intro h
    rw [List.map_congr_left fun chars hchars =>
      reloaded_eq_rightpad (length_le_widest hchars) (h chars hchars)]
    exact ofLines_map_rightpad hne

/-! ## In terms of cells -/

/-- What is true of all cells of a loaded grid is true of all columns of its lines. -/
lemma forall_cell?_ofLines_iff {ls : List (List Char)} {P : Int → Char → Prop} :
    (∀ x y v c, (ofLines ls).cell? x y = some v → Number.IsChar v c → P x c) ↔
      ∀ chars ∈ ls, ∀ column < widest ls, P column (chars[column]?.getD padding) := by
  constructor
  · intro h chars hchars column hc
    obtain ⟨row, hrow⟩ := List.mem_iff_getElem?.mp hchars
    exact h column row _ _ (cell?_ofLines hrow hc) (Number.isChar_ofChar _)
  · intro h x y v c hcell hchar
    obtain ⟨hx, hy, hxw, hyh⟩ := covers_of_cell? hcell
    lift x to Nat using hx
    lift y to Nat using hy
    have hr : y < ls.length := Int.ofNat_lt.mp hyh
    have hc : x < widest ls := Int.ofNat_lt.mp hxw
    rw [cell?_ofLines (List.getElem?_eq_getElem hr) hc] at hcell
    cases hcell
    rw [← Number.char?_eq_some, Number.char?_ofChar, Option.some.injEq] at hchar
    rw [← hchar]
    exact h _ (List.getElem_mem hr) x hc

lemma reload_ofLines_iff {ls : List (List Char)} (hne : ls ≠ [])
    (hlines : ∀ chars ∈ ls, '\n' ∉ chars) :
    ofSource (ofLines ls).text = ofLines ls ↔
      ∀ x y v c, (ofLines ls).cell? x y = some v → Number.IsChar v c →
        ComesBack (ofLines ls).width x c := by
  rw [ofSource, lines_text_ofLines hne hlines, ofLines_map_reloaded_iff hne]
  exact forall_cell?_ofLines_iff.symm

/-- **A grid can be loaded from its own text** if and only if none of its cells is a null character
and none of its rows ends in a carriage return.  A grid without columns has no cells, and is always
loaded from its text. -/
theorem reload_eq_self_iff (source : String) :
    (ofSource (ofSource source).text = ofSource source ↔
      (∀ x y v, (ofSource source).cell? x y = some v → ¬ Number.IsChar v '\x00') ∧
        ∀ y v, (ofSource source).cell? ((ofSource source).width - 1) y = some v →
          ¬ Number.IsChar v '\r') ∧
      ((ofSource source).width = 0 → ofSource (ofSource source).text = ofSource source) := by
  set g := ofSource source
  have hne : Text.lines source ≠ [] := by simpa [Text.lines] using splitLines_ne_nil source.toList
  have hreload : ofSource g.text = g ↔
      ∀ x y v c, g.cell? x y = some v → Number.IsChar v c → ComesBack g.width x c :=
    reload_ofLines_iff hne (Text.newline_not_mem_of_mem_lines source)
  refine ⟨?_, fun hwidth => hreload.mpr ?_⟩
  · rw [hreload]
    constructor
    · intro h
      refine ⟨fun x y v hcell hnull => (h x y v _ hcell hnull).1 rfl, ?_⟩
      intro y v hcell hreturn
      exact (h _ y v _ hcell hreturn).2 (by omega) rfl
    · rintro ⟨hnull, hreturn⟩ x y v c hcell hchar
      constructor
      · rintro rfl
        exact hnull x y v hcell hchar
      · rintro hx rfl
        obtain rfl : x = g.width - 1 := by omega
        exact hreturn y v hcell hchar
  · intro x y v c hcell
    obtain ⟨hx, -, hxw, -⟩ := covers_of_cell? hcell
    omega

/-- A carriage return or a null character in the last column is lost.  Without columns there is
nothing to lose. -/
theorem reload_eq_self_iff_last_column :
    ofSource (ofSource "ab\r\r\nc").text ≠ ofSource "ab\r\r\nc" ∧
      ofSource (ofSource "ab\x00\r\n\rc").text ≠ ofSource "ab\x00\r\n\rc" ∧
      ofSource (ofSource "\r\n\n").text = ofSource "\r\n\n" := by
  refine ⟨fun h => ?_, fun h => ?_, (reload_eq_self_iff "\r\n\n").2 (by decide)⟩
  · exact ((reload_eq_self_iff _).1.mp h).2 0 (Number.ofChar '\r') (by decide +kernel)
      (Number.isChar_ofChar _)
  · exact ((reload_eq_self_iff _).1.mp h).1 2 0 (Number.ofChar '\x00') (by decide +kernel)
      (Number.isChar_ofChar _)

end Grid

end Aquarium
