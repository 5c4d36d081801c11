import Aquarium.Proofs.Grid.Shape
import Aquarium.Proofs.Number.Value

/-!
# The grid as a memory

A grid keeps its cells in two places: those of the program extent in an array, all others in an
ordered list.  It has two readers, one for the pointer (`cell?`) and one for the program (`read`).
From outside nothing of this shows.  After any writes a grid behaves like a map from pairs of
natural numbers to values (`Refines`): a place holds what was written there last
(`Write.last?`), and before the first write what the source has there (`sourceCell`).

**One place.**  Putting an outlier changes what is looked up at its place only, and different
places of the program extent have different positions in the array (`index_inj`).  Together this
is `get_set`: a write is an update of the map at one place.

**All writes.**  `Tidy` is what the two storages need: an array of the right size, and outliers in
order and outside the program extent.  Loading makes a tidy grid and writes keep it tidy.
-/

namespace Aquarium

/-! ## Outliers -/

namespace Outlier

/-- The order of rows, and of columns in the same row. -/
def Before (a b : Outlier) : Prop := a.row < b.row ∨ a.row = b.row ∧ a.column < b.column

variable {row column : Nat} {v : Float}

/-- Putting a value changes what is found at its place, and nowhere else. -/
lemma lookup_put (row' column' : Nat) (os : List Outlier) :
    lookup row' column' (put row column v os) =
      if row' = row ∧ column' = column then v else lookup row' column' os := by
  by_cases hwanted : row' = row ∧ column' = column
  · obtain ⟨rfl, rfl⟩ := hwanted
    rw [if_pos ⟨rfl, rfl⟩]
    induction os with
    | nil => simp [put, lookup]
    | cons o rest ih =>
        simp only [put]
        split_ifs with hplace hprecedes
        · simp [lookup]
        · simp [lookup, hplace, ih]
        · simp [lookup]
  · have hnew : ¬ (row = row' ∧ column = column') := by omega
    rw [if_neg hwanted]
    induction os with
    | nil => simp only [put, lookup, if_neg hnew]
    | cons o rest ih =>
        simp only [put]
        split_ifs with hplace hprecedes
        · simp only [lookup, hplace, if_neg hnew]
        · simp only [lookup, ih]
        · simp only [lookup, if_neg hnew]

lemma mem_put {o : Outlier} {os : List Outlier} (h : o ∈ put row column v os) :
    o = ⟨row, column, v⟩ ∨ o ∈ os := by
  induction os with
  | nil => exact Or.inl (List.mem_singleton.mp h)
  | cons first rest ih =>
      simp only [put] at h
      split_ifs at h
      · rcases List.mem_cons.mp h with rfl | h
        · exact Or.inl rfl
        · exact Or.inr (List.mem_cons_of_mem _ h)
      · rcases List.mem_cons.mp h with rfl | h
        · exact Or.inr List.mem_cons_self
        · exact (ih h).imp_right (List.mem_cons_of_mem _)
      · exact List.mem_cons.mp h

/-- Putting a value keeps the order. -/
lemma pairwise_put {os : List Outlier} (h : os.Pairwise Before) :
    (put row column v os).Pairwise Before := by
  induction os with
  | nil => exact List.pairwise_singleton _ _
  | cons o rest ih =>
      obtain ⟨ho, hrest⟩ := List.pairwise_cons.mp h
      simp only [put]
      split_ifs with hplace hprecedes
      · refine List.pairwise_cons.mpr ⟨fun b hb => ?_, hrest⟩
        simpa only [Before, hplace.1, hplace.2] using ho b hb
      · refine List.pairwise_cons.mpr ⟨fun b hb => ?_, ih hrest⟩
        rcases mem_put hb with rfl | hb
        · simpa [Before, precedes] using hprecedes
        · exact ho b hb
      · -- The first outlier neither is at the place nor precedes it, so it comes after it.
        have hfirst : Before ⟨row, column, v⟩ o := by
          simp only [precedes, Bool.or_eq_true, Bool.and_eq_true, decide_eq_true_eq,
            beq_iff_eq] at hprecedes
          simp only [Before]
          omega
        refine List.pairwise_cons.mpr ⟨fun b hb => ?_, h⟩
        rcases List.mem_cons.mp hb with rfl | hb
        · exact hfirst
        · have hob := ho b hb
          simp only [Before] at hfirst hob ⊢
          omega

end Outlier

/-! ## One place -/

namespace Grid

lemma inProgram_iff {g : Grid} {column row : Nat} :
    g.inProgram column row = true ↔ column < g.width ∧ row < g.height := by
  simp only [inProgram, Bool.and_eq_true, decide_eq_true_eq]

/-- Counting rows gives different places different positions in the array. -/
lemma index_inj {width column row column' row' : Nat} (hc : column < width) (hc' : column' < width)
    (h : row * width + column = row' * width + column') : column = column' ∧ row = row' := by
  have hcolumn : column = column' := by
    have hmod := congrArg (· % width) h
    simpa only [Nat.mul_add_mod_of_lt hc, Nat.mul_add_mod_of_lt hc'] using hmod
  subst hcolumn
  have hrows : row * width = row' * width := Nat.add_right_cancel h
  exact ⟨rfl, Nat.eq_of_mul_eq_mul_right (Nat.zero_lt_of_lt hc) hrows⟩

/-- The array is changed in the position of one place. -/
lemma getElem?_setIfInBounds_index {g : Grid} (hf : g.Filled) {column row column' row' : Nat}
    (hin : column < g.width ∧ row < g.height) (hin' : column' < g.width ∧ row' < g.height)
    (v : Float) :
    (g.cells.setIfInBounds (row * g.width + column) v)[row' * g.width + column']? =
      if column' = column ∧ row' = row then some v else g.cells[row' * g.width + column']? := by
  by_cases hsame : column' = column ∧ row' = row
  · obtain ⟨rfl, rfl⟩ := hsame
    rw [if_pos ⟨rfl, rfl⟩, Array.getElem?_setIfInBounds_self_of_lt (index_lt_size hf hin.1 hin.2)]
  · have hindex : row * g.width + column ≠ row' * g.width + column' := by
      intro h
      have hplace := index_inj hin.1 hin'.1 h
      omega
    rw [if_neg hsame, Array.getElem?_setIfInBounds_ne hindex]

/-- **A write updates the map at one place.** -/
lemma get_set {g : Grid} (hf : g.Filled) (column row : Nat) (v : Float) (column' row' : Nat) :
    (g.set column row v).get column' row' =
      if column' = column ∧ row' = row then v else g.get column' row' := by
  -- The two places can share a storage only if both are in the program extent or both are not.
  have hdiffer (h : g.inProgram column row ≠ g.inProgram column' row') :
      ¬ (column' = column ∧ row' = row) := by
    rintro ⟨rfl, rfl⟩
    exact h rfl
  by_cases hin : g.inProgram column row = true
  · by_cases hin' : g.inProgram column' row' = true
    · have hset := getElem?_setIfInBounds_index hf (inProgram_iff.mp hin) (inProgram_iff.mp hin') v
      have hget : (g.set column row v).get column' row' =
          ((g.cells.setIfInBounds (row * g.width + column) v)[row' * g.width + column']?).getD
            (Number.ofNat 0) := by
        rw [set, if_pos hin]
        exact if_pos hin'
      rw [hget, hset, get, if_pos hin']
      split_ifs <;> rfl
    · rw [if_neg (hdiffer (by rw [hin]; exact Ne.symm hin'))]
      rw [set, if_pos hin, get, get, if_neg hin']
      exact if_neg hin'
  · rw [set, if_neg hin]
    by_cases hin' : g.inProgram column' row' = true
    · rw [if_neg (hdiffer (by rw [hin']; exact hin))]
      rw [get, get, if_pos hin']
      exact if_pos hin'
    · rw [get, get, if_neg hin']
      refine (if_neg hin').trans ?_
      simp only [Outlier.lookup_put, and_comm]

end Grid

/-! ## Writes -/

/-- A write that is asked for: two values that may name a place, and the value to put there. -/
structure Write where
  x : Float
  y : Float
  value : Float

namespace Write

/-- The two values name a place: they are natural numbers of at most 64 bits. -/
def Names (w : Write) (column row : Nat) : Prop :=
  Number.IsIndex w.x column ∧ Number.IsIndex w.y row

instance (w : Write) (column row : Nat) : Decidable (w.Names column row) :=
  inferInstanceAs (Decidable (_ ∧ _))

/-- The value that was written last at a place, if any was. -/
def last? (column row : Nat) : List Write → Option Float
  | [] => none
  | w :: later => (last? column row later).or (if w.Names column row then some w.value else none)

end Write

namespace Grid

/-- The grid after a write that was asked for.  A write to no place is refused and changes
nothing. -/
def apply (g : Grid) (w : Write) : Grid :=
  match g.write w.x w.y w.value with
  | .ok g' => g'
  | .error _ => g

/-- The grid after some writes. -/
def after (g : Grid) (writes : List Write) : Grid := writes.foldl apply g

@[simp] lemma after_nil (g : Grid) : g.after [] = g := rfl

@[simp] lemma after_cons (g : Grid) (w : Write) (writes : List Write) :
    g.after (w :: writes) = (g.apply w).after writes := rfl

lemma write_of_names {g : Grid} {w : Write} {column row : Nat} (h : w.Names column row) :
    g.write w.x w.y w.value = .ok (g.set column row w.value) := by
  simp only [write, Number.index?_eq_some.mpr h.1, Number.index?_eq_some.mpr h.2]

lemma write_of_not_names {g : Grid} {w : Write} (h : ∀ column row, ¬ w.Names column row) :
    g.write w.x w.y w.value = .error (.outside w.x w.y) := by
  unfold write
  split
  · rename_i column row hx hy
    exact absurd ⟨Number.index?_eq_some.mp hx, Number.index?_eq_some.mp hy⟩ (h column row)
  · rfl

lemma apply_of_names {g : Grid} {w : Write} {column row : Nat} (h : w.Names column row) :
    g.apply w = g.set column row w.value := by
  rw [apply, write_of_names h]

lemma apply_of_not_names {g : Grid} {w : Write} (h : ∀ column row, ¬ w.Names column row) :
    g.apply w = g := by
  rw [apply, write_of_not_names h]

/-- What becomes of a grid in a write: it is changed in the named place, or it stays. -/
lemma apply_cases (g : Grid) (w : Write) :
    (∃ column row, w.Names column row ∧ g.apply w = g.set column row w.value) ∨
      (∀ column row, ¬ w.Names column row) ∧ g.apply w = g := by
  by_cases h : ∃ column row, w.Names column row
  · obtain ⟨column, row, h⟩ := h
    exact Or.inl ⟨column, row, h, apply_of_names h⟩
  · simp only [not_exists] at h
    exact Or.inr ⟨h, apply_of_not_names h⟩

/-! ## Tidy grids -/

/-- The two storages are in order: there is a cell for every place of the program extent, and the
outliers are outside of it and sorted by row and column, each place at most once. -/
structure Tidy (g : Grid) : Prop where
  filled : g.Filled
  outside : ∀ o ∈ g.outliers, ¬ (o.column < g.width ∧ o.row < g.height)
  ordered : g.outliers.Pairwise Outlier.Before

lemma tidy_ofSource (source : String) : (ofSource source).Tidy where
  filled := filled_ofSource source
  outside _ ho := absurd ho List.not_mem_nil
  ordered := List.Pairwise.nil

lemma Tidy.set {g : Grid} (h : g.Tidy) (column row : Nat) (v : Float) :
    (g.set column row v).Tidy := by
  refine ⟨h.filled.set column row v, ?_, ?_⟩
  · rw [width_set, height_set]
    intro o ho
    unfold Grid.set at ho
    split_ifs at ho with hin
    · exact h.outside o ho
    · rcases Outlier.mem_put ho with rfl | ho
      · exact fun hplace => hin (inProgram_iff.mpr hplace)
      · exact h.outside o ho
  · unfold Grid.set
    split_ifs
    · exact h.ordered
    · exact Outlier.pairwise_put h.ordered

lemma Tidy.apply {g : Grid} (h : g.Tidy) (w : Write) : (g.apply w).Tidy := by
  obtain ⟨column, row, -, hset⟩ | ⟨-, hsame⟩ := g.apply_cases w
  · rw [hset]
    exact h.set column row w.value
  · rw [hsame]
    exact h

lemma Tidy.after {g : Grid} (h : g.Tidy) (writes : List Write) : (g.after writes).Tidy := by
  induction writes generalizing g with
  | nil => exact h
  | cons w writes ih => exact ih (h.apply w)

/-- Writes change the sizes of no grid. -/
lemma sizes_after (g : Grid) (writes : List Write) :
    (g.after writes).width = g.width ∧ (g.after writes).height = g.height := by
  induction writes generalizing g with
  | nil => exact ⟨rfl, rfl⟩
  | cons w writes ih =>
      rw [after_cons, (ih (g.apply w)).1, (ih (g.apply w)).2]
      obtain ⟨column, row, -, hset⟩ | ⟨-, hsame⟩ := g.apply_cases w
      · rw [hset, width_set, height_set]
        exact ⟨rfl, rfl⟩
      · rw [hsame]
        exact ⟨rfl, rfl⟩

lemma get_apply {g : Grid} (h : g.Tidy) (w : Write) (column row : Nat) :
    (g.apply w).get column row = if w.Names column row then w.value else g.get column row := by
  obtain ⟨column', row', hnames, hset⟩ | ⟨hnone, hsame⟩ := g.apply_cases w
  · have hplace : w.Names column row ↔ column = column' ∧ row = row' := by
      constructor
      · rintro ⟨hx, hy⟩
        exact ⟨Number.IsIndex.unique hx hnames.1, Number.IsIndex.unique hy hnames.2⟩
      · rintro ⟨rfl, rfl⟩
        exact hnames
    rw [hset, get_set h.filled]
    simp only [hplace]
  · rw [hsame, if_neg (hnone column row)]

/-- **The last write counts.**  A place that was never written holds what it held before. -/
lemma get_after {g : Grid} (h : g.Tidy) (writes : List Write) (column row : Nat) :
    (g.after writes).get column row = (Write.last? column row writes).getD (g.get column row) := by
  induction writes generalizing g with
  | nil => rfl
  | cons w writes ih =>
      rw [after_cons, ih (h.apply w), get_apply h, Write.last?]
      cases Write.last? column row writes with
      | some v => rfl
      | none => split_ifs <;> rfl

/-! ## Loading -/

/-- What the source has at a place: the character of the line, a blank where the line is too
short, and zero outside the program extent. -/
def sourceCell (source : String) (column row : Nat) : Float :=
  match (Text.lines source)[row]? with
  | some chars =>
      match chars[column]? with
      | some c => Number.ofChar c
      | none =>
          if column < widest (Text.lines source) then Number.ofChar padding else Number.ofNat 0
  | none => Number.ofNat 0

/-- Lines that are filled up to one width are found by counting rows. -/
lemma getElem?_flatMap_rowCells {width : Nat} {lines : List (List Char)}
    (h : ∀ chars ∈ lines, chars.length ≤ width) {column : Nat} (hc : column < width) (row : Nat) :
    (lines.flatMap (rowCells width))[row * width + column]? =
      lines[row]?.bind fun chars => (rowCells width chars)[column]? := by
  induction lines generalizing row with
  | nil => simp
  | cons chars lines ih =>
      have hlength : (rowCells width chars).length = width :=
        length_rowCells (h chars List.mem_cons_self)
      rw [List.flatMap_cons]
      cases row with
      | zero =>
          rw [Nat.zero_mul, Nat.zero_add, List.getElem?_append_left (by rw [hlength]; exact hc)]
          rfl
      | succ row =>
          have hskip : (row + 1) * width + column = width + (row * width + column) := by ring
          rw [hskip, List.getElem?_append_right (by rw [hlength]; exact Nat.le_add_right _ _),
            hlength, Nat.add_sub_cancel_left]
          exact ih (fun l hl => h l (List.mem_cons_of_mem _ hl)) row

lemma getElem?_rowCells {width : Nat} {chars : List Char} {column : Nat} (hc : column < width) :
    (rowCells width chars)[column]? =
      some ((chars[column]?.map Number.ofChar).getD (Number.ofChar padding)) := by
  unfold rowCells
  by_cases hchars : column < chars.length
  · rw [List.getElem?_append_left (by rw [List.length_map]; exact hchars), List.getElem?_map,
      List.getElem?_eq_getElem hchars]
    rfl
  · rw [List.getElem?_append_right (by rw [List.length_map]; omega), List.length_map,
      List.getElem?_replicate, if_pos (by omega), List.getElem?_eq_none (by omega)]
    rfl

/-- A loaded grid holds its source. -/
lemma get_ofSource (source : String) (column row : Nat) :
    (ofSource source).get column row = sourceCell source column row := by
  have hfits : ∀ chars ∈ Text.lines source, chars.length ≤ widest (Text.lines source) :=
    fun _ hchars => length_le_widest hchars
  unfold get sourceCell
  by_cases hin : (ofSource source).inProgram column row = true
  · obtain ⟨hc, hr⟩ : column < widest (Text.lines source) ∧ row < (Text.lines source).length :=
      inProgram_iff.mp hin
    have hcell := getElem?_flatMap_rowCells hfits hc row
    rw [if_pos hin]
    simp only [ofSource, ofLines, List.getElem?_toArray, hcell, List.getElem?_eq_getElem hr,
      Option.bind_some, getElem?_rowCells hc, Option.getD_some, if_pos hc]
    cases (Text.lines source)[row][column]? <;> rfl
  · rw [if_neg hin]
    cases hrow : (Text.lines source)[row]? with
    | none => rfl
    | some chars =>
        have hr : row < (Text.lines source).length := (List.getElem?_eq_some_iff.mp hrow).1
        have hc : ¬ column < widest (Text.lines source) :=
          fun hc => hin (inProgram_iff.mpr ⟨hc, hr⟩)
        have hchars := hfits chars (List.mem_of_getElem? hrow)
        simp only [List.getElem?_eq_none (show chars.length ≤ column by omega), if_neg hc]
        rfl

/-! ## The refinement -/

/-- The grid behaves as a total map on pairs of natural numbers. -/
structure Refines (g : Grid) (memory : Nat → Nat → Float) : Prop where
  /-- Two values that name a place read what the map has there. -/
  read_place : ∀ x y column row, Number.IsIndex x column → Number.IsIndex y row →
    g.read x y = memory column row
  /-- Two values that name no place read as zero. -/
  read_nowhere : ∀ x y, (∀ column row, ¬ (Number.IsIndex x column ∧ Number.IsIndex y row)) →
    g.read x y = Number.ofNat 0
  /-- The pointer finds the same values in the program extent. -/
  cell?_covered : ∀ x y, g.Covers x y → g.cell? x y = some (memory x.toNat y.toNat)
  /-- The pointer finds nothing outside the program extent. -/
  cell?_uncovered : ∀ x y, ¬ g.Covers x y → g.cell? x y = none
  /-- A write to a place succeeds and changes the map at this place only. -/
  write_place : ∀ w column row, Write.Names w column row →
    g.write w.x w.y w.value = .ok (g.apply w) ∧
      ∀ column' row', (g.apply w).get column' row' =
        if column' = column ∧ row' = row then w.value else memory column' row'
  /-- A write to no place is refused, with its two values, and changes nothing. -/
  write_nowhere : ∀ w, (∀ column row, ¬ Write.Names w column row) →
    g.write w.x w.y w.value = .error (.outside w.x w.y) ∧ g.apply w = g

/-- A tidy grid behaves as the map that `get` reads. -/
lemma Tidy.refines_get {g : Grid} (h : g.Tidy) : g.Refines g.get where
  read_place x y column row hx hy := by
    simp only [read, Number.index?_eq_some.mpr hx, Number.index?_eq_some.mpr hy]
  read_nowhere x y hnone := by
    unfold read
    split
    · rename_i column row hx hy
      exact absurd ⟨Number.index?_eq_some.mp hx, Number.index?_eq_some.mp hy⟩ (hnone column row)
    · rfl
  cell?_covered x y hxy := by
    obtain ⟨hx, hy, hxw, hyh⟩ := hxy
    have hin : x.toNat < g.width ∧ y.toNat < g.height := by omega
    rw [cell?, if_pos ⟨hx, hy, hxw, hyh⟩, get, if_pos (inProgram_iff.mpr hin),
      Array.getElem?_eq_getElem (index_lt_size h.filled hin.1 hin.2)]
    rfl
  cell?_uncovered x y hxy := if_neg hxy
  write_place w column row hw := by
    rw [write_of_names hw, apply_of_names hw]
    exact ⟨rfl, get_set h.filled column row w.value⟩
  write_nowhere w hw := ⟨write_of_not_names hw, apply_of_not_names hw⟩

/-- **A grid is a memory.**  Load any source and ask for any writes, to places or not.  The sizes
stay those of the source, the array has a cell for every place of the program extent, every
position computed in it is one of its own, and the outliers are outside the program extent, in
strictly increasing order of row and column.  Both readers and all further writes behave as those
of the map that holds at each place the value written there last, and else what the source has
there. -/
theorem grid_refines_memory (source : String) (writes : List Write) :
    let g := (ofSource source).after writes
    g.width = (ofSource source).width ∧ g.height = (ofSource source).height ∧ g.Tidy ∧
      (∀ column row, column < g.width → row < g.height →
        row * g.width + column < g.cells.size) ∧
      g.Refines fun column row =>
        (Write.last? column row writes).getD (sourceCell source column row) := by
  intro g
  have htidy : g.Tidy := (tidy_ofSource source).after writes
  have hmemory : g.get = fun column row =>
      (Write.last? column row writes).getD (sourceCell source column row) := by
    funext column row
    rw [get_after (tidy_ofSource source), get_ofSource]
  obtain ⟨hwidth, hheight⟩ := sizes_after (ofSource source) writes
  refine ⟨hwidth, hheight, htidy, fun column row => index_lt_size htidy.filled, ?_⟩
  rw [← hmemory]
  exact htidy.refines_get

/-- A place of the program is written twice, a place outside of it once, and one write is refused.
The two readers agree on the last value, a short line is filled up with a blank, and the refused
write has left nothing. -/
theorem grid_refines_memory_overwritten :
    let number := Number.ofNat
    let writes : List Write :=
      [⟨number 1, number 0, number 7⟩, ⟨number 5, number 2, number 8⟩,
        ⟨Number.ofInt (-1), number 0, number 6⟩, ⟨number 1, number 0, number 9⟩]
    let g := (ofSource "ab\nc").after writes
    g.read (number 1) (number 0) = number 9 ∧ g.cell? 1 0 = some (number 9) ∧
      g.read (number 5) (number 2) = number 8 ∧ g.cell? 5 2 = none ∧
      g.read (number 1) (number 1) = Number.ofChar ' ' ∧
      g.read (Number.ofInt (-1)) (number 0) = number 0 := by
  intro number writes g
  have hnumber : ∀ n ∈ [0, 1, 2, 5], Number.IsIndex (number n) n := by
    have hindex : ∀ n ∈ [0, 1, 2, 5], Number.index? (number n) = some n := by decide +kernel
    exact fun n hn => Number.index?_eq_some.mp (hindex n hn)
  have hnegative : ∀ n, ¬ Number.IsIndex (Number.ofInt (-1)) n :=
    Number.index?_eq_none.mp (by decide +kernel)
  obtain ⟨hwidth, hheight, -, -, hrefines⟩ := grid_refines_memory "ab\nc" writes
  have hcovered : g.Covers 1 0 := by
    rw [Covers, hwidth, hheight]
    decide +kernel
  have huncovered : ¬ g.Covers 5 2 := by
    rw [Covers, hwidth, hheight]
    decide +kernel
  refine ⟨?_, ?_, ?_, hrefines.cell?_uncovered 5 2 huncovered, ?_, ?_⟩
  · rw [hrefines.read_place _ _ 1 0 (hnumber 1 (by decide)) (hnumber 0 (by decide))]
    decide +kernel
  · rw [hrefines.cell?_covered 1 0 hcovered]
    decide +kernel
  · rw [hrefines.read_place _ _ 5 2 (hnumber 5 (by decide)) (hnumber 2 (by decide))]
    decide +kernel
  · rw [hrefines.read_place _ _ 1 1 (hnumber 1 (by decide)) (hnumber 1 (by decide))]
    decide +kernel
  · exact hrefines.read_nowhere _ _ fun column _ hplace => hnegative column hplace.1

end Grid

end Aquarium
