import Aquarium.Proofs.Grid.Outliers

/-!
# The extent of a grid

The extent is computed from the outliers whenever it is asked for.  It is the least box at the
origin that contains the program extent and every place outside of it that was ever written
(`isLeast_boxes`), although the history of writes is not kept: an outlier is never removed, and a
place that was written has one, even for a written zero.

The proof compares the extent with all boxes at once.  It is contained in a box exactly if the box
contains what was written (`extent_le_iff_mem_boxes`), and one more write asks for one more place
(`mem_boxes_concat`), so the extent grows by maxima.  Counts of columns and rows stay below the
largest number of 64 bits, because no index comes so close to it.
-/

namespace Aquarium

namespace Grid

/-- The boxes at the origin, given by their columns and rows, that contain the program extent of a
grid and every place outside of it to which one of the writes goes. -/
def boxes (g : Grid) (writes : List Write) : Set (Nat × Nat) :=
  {box | g.width ≤ box.1 ∧ g.height ≤ box.2 ∧
    ∀ w ∈ writes, ∀ column row, w.Names column row → ¬ (column < g.width ∧ row < g.height) →
      column < box.1 ∧ row < box.2}

/-! ## Extents and boxes -/

/-- The maxima are the least upper bound of what they are taken of. -/
lemma foldl_countTo_le_iff (os : List Outlier) (start box : Nat × Nat) :
    os.foldl (fun (w, h) o => (max w (countTo o.column), max h (countTo o.row))) start ≤ box ↔
      start ≤ box ∧ ∀ o ∈ os, countTo o.column ≤ box.1 ∧ countTo o.row ≤ box.2 := by
  induction os generalizing start with
  | nil => simp
  | cons o rest ih =>
      rw [List.foldl_cons, ih, List.forall_mem_cons, ← and_assoc]
      refine and_congr_left fun _ => ?_
      simp only [Prod.le_def, max_le_iff]
      tauto

lemma extent_le_iff {g : Grid} {box : Nat × Nat} :
    g.extent ≤ box ↔
      (g.width ≤ box.1 ∧ g.height ≤ box.2) ∧
        ∀ o ∈ g.outliers, countTo o.column ≤ box.1 ∧ countTo o.row ≤ box.2 :=
  foldl_countTo_le_iff g.outliers (g.width, g.height) box

lemma countTo_of_isIndex {v : Float} {n : Nat} (h : Number.IsIndex v n) : countTo n = n + 1 := by
  have hlt := h.succ_lt
  simp only [countTo, Number.indexBound]
  omega

section Written

variable {source : String} {writes : List Write}

/-- The outliers of a loaded grid are at the places outside the program extent that were
written. -/
lemma exists_outlier_iff {column row : Nat} :
    (∃ o ∈ ((ofSource source).after writes).outliers, o.IsAt column row) ↔
      ¬ (ofSource source).inProgram column row ∧ ∃ w ∈ writes, w.Names column row := by
  rw [← Write.last?_isSome_iff, Option.isSome_iff_exists]
  constructor
  · rintro ⟨o, ho, rfl, rfl⟩
    rw [mem_outliers_after (tidy_ofSource source)] at ho
    cases hlast : Write.last? o.column o.row writes with
    | some v =>
        rw [hlast] at ho
        exact ⟨ho.1, v, rfl⟩
    | none =>
        rw [hlast] at ho
        exact absurd ho List.not_mem_nil
  · rintro ⟨hout, v, hlast⟩
    refine ⟨⟨row, column, v⟩, ?_, rfl, rfl⟩
    rw [mem_outliers_after (tidy_ofSource source), hlast]
    exact ⟨hout, rfl⟩

/-- No count of columns or rows reaches the largest number of 64 bits. -/
lemma countTo_outlier {o : Outlier} (h : o ∈ ((ofSource source).after writes).outliers) :
    countTo o.column = o.column + 1 ∧ countTo o.row = o.row + 1 := by
  obtain ⟨-, w, -, hnames⟩ := exists_outlier_iff.mp ⟨o, h, rfl, rfl⟩
  exact ⟨countTo_of_isIndex hnames.1, countTo_of_isIndex hnames.2⟩

/-- **The extent fits into the boxes that contain what was written**, and into no others. -/
lemma extent_le_iff_mem_boxes {box : Nat × Nat} :
    ((ofSource source).after writes).extent ≤ box ↔ box ∈ (ofSource source).boxes writes := by
  obtain ⟨hwidth, hheight⟩ := sizes_after (ofSource source) writes
  rw [extent_le_iff, hwidth, hheight, and_assoc]
  refine and_congr_right fun _ => and_congr_right fun _ => ?_
  constructor
  · intro h w hw column row hnames hout
    obtain ⟨o, ho, rfl, rfl⟩ := exists_outlier_iff.mpr
      ⟨fun hin => hout (inProgram_iff.mp hin), w, hw, hnames⟩
    obtain ⟨hcolumn, hrow⟩ := countTo_outlier ho
    have hbox := h o ho
    omega
  · intro h o ho
    obtain ⟨hout, w, hw, hnames⟩ := exists_outlier_iff.mp ⟨o, ho, rfl, rfl⟩
    obtain ⟨hcolumn, hrow⟩ := countTo_outlier ho
    have hbox := h w hw _ _ hnames fun hin => hout (inProgram_iff.mpr hin)
    omega

lemma isLeast_boxes (source : String) (writes : List Write) :
    IsLeast ((ofSource source).boxes writes) ((ofSource source).after writes).extent :=
  ⟨extent_le_iff_mem_boxes.mp le_rfl, fun _ hbox => extent_le_iff_mem_boxes.mpr hbox⟩

end Written

/-! ## One more write -/

/-- A box contains every place that was written, be it in the program extent or not. -/
lemma mem_box_of_names {g : Grid} {writes : List Write} {box : Nat × Nat}
    (hbox : box ∈ g.boxes writes) {w : Write} (hw : w ∈ writes) {column row : Nat}
    (hnames : w.Names column row) : column < box.1 ∧ row < box.2 := by
  obtain ⟨hwidth, hheight, hplaces⟩ := hbox
  by_cases hin : column < g.width ∧ row < g.height
  · omega
  · exact hplaces w hw column row hnames hin

/-- One more write asks for one more place. -/
lemma mem_boxes_concat {g : Grid} {writes : List Write} {box : Nat × Nat} {w : Write}
    {column row : Nat} (hnames : w.Names column row) :
    box ∈ g.boxes (writes ++ [w]) ↔ box ∈ g.boxes writes ∧ column < box.1 ∧ row < box.2 := by
  constructor
  · intro hbox
    refine ⟨⟨hbox.1, hbox.2.1, fun w' hw' => hbox.2.2 w' (List.mem_append_left _ hw')⟩, ?_⟩
    exact mem_box_of_names hbox (List.mem_append_right _ List.mem_cons_self) hnames
  · rintro ⟨hbox, hplace⟩
    refine ⟨hbox.1, hbox.2.1, fun w' hw' column' row' hnames' hout => ?_⟩
    rcases List.mem_append.mp hw' with hw' | hw'
    · exact hbox.2.2 w' hw' column' row' hnames' hout
    · obtain rfl := List.mem_singleton.mp hw'
      obtain ⟨rfl, rfl⟩ := hnames.unique hnames'
      exact hplace

/-- A write makes the extent grow to its place. -/
lemma extent_apply_of_names {source : String} {writes : List Write} {w : Write}
    {column row : Nat} (hnames : w.Names column row) :
    (((ofSource source).after writes).apply w).extent =
      (max ((ofSource source).after writes).extent.1 (column + 1),
        max ((ofSource source).after writes).extent.2 (row + 1)) := by
  have hconcat : ((ofSource source).after writes).apply w =
      (ofSource source).after (writes ++ [w]) := by
    rw [after, after, List.foldl_concat]
  refine eq_of_forall_ge_iff fun box => ?_
  rw [hconcat, extent_le_iff_mem_boxes, mem_boxes_concat hnames, ← extent_le_iff_mem_boxes]
  simp only [Prod.le_def, max_le_iff, Nat.succ_le_iff]
  tauto

/-- Nothing but zero is read outside the extent, whether the two numbers are indices or too large
for that. -/
lemma read_eq_zero_of_outside {source : String} {writes : List Write} {x y : Float}
    {column row : Nat} (hx : Number.value? x = some (column : ℚ))
    (hy : Number.value? y = some (row : ℚ))
    (hout : ¬ (column < ((ofSource source).after writes).extent.1 ∧
      row < ((ofSource source).after writes).extent.2)) :
    ((ofSource source).after writes).read x y = Number.ofNat 0 := by
  unfold read
  split
  · rename_i column' row' hx' hy'
    obtain ⟨hcolumn, -⟩ := Number.index?_eq_some.mp hx'
    obtain ⟨hrow, -⟩ := Number.index?_eq_some.mp hy'
    obtain rfl : column = column' := by simpa using hx.symm.trans hcolumn
    obtain rfl : row = row' := by simpa using hy.symm.trans hrow
    have hbox := (isLeast_boxes source writes).1
    have hunwritten : Write.last? column row writes = none := by
      rw [← Option.not_isSome_iff_eq_none, Write.last?_isSome_iff]
      rintro ⟨w, hw, hnames⟩
      exact hout (mem_box_of_names hbox hw hnames)
    have hprogram : ¬ (ofSource source).inProgram column row := by
      rw [inProgram_iff]
      have hwidth := hbox.1
      have hheight := hbox.2.1
      omega
    rw [get_after (tidy_ofSource source), hunwritten, Option.getD_none, get, if_neg hprogram]
    rfl
  · rfl

/-- **The extent is the least box around what was written.**  Load any source and ask for any
writes, to places or not.  The extent is the least box, in columns as in rows, that contains the
program extent and every place outside of it that was written.  A further write to a place
succeeds and takes the larger one of each, a refused write changes nothing, and so the extent never
shrinks.  The counts of columns and rows never reach the end of the numbers of 64 bits.  Outside
the extent all natural coordinates read as zero. -/
theorem extent_is_least_box (source : String) (writes : List Write) :
    let g := (ofSource source).after writes
    IsLeast ((ofSource source).boxes writes) g.extent ∧
      (∀ (w : Write) (column row : Nat), w.Names column row →
        g.write w.x w.y w.value = .ok (g.apply w) ∧
          (g.apply w).extent = (max g.extent.1 (column + 1), max g.extent.2 (row + 1))) ∧
      (∀ (w : Write) (fault : Fault), g.write w.x w.y w.value = .error fault →
        (g.apply w).extent = g.extent) ∧
      (∀ w, g.extent ≤ (g.apply w).extent) ∧
      (∀ o ∈ g.outliers, countTo o.column = o.column + 1 ∧ countTo o.row = o.row + 1) ∧
      ∀ (x y : Float) (column row : Nat), Number.value? x = some (column : ℚ) →
        Number.value? y = some (row : ℚ) → ¬ (column < g.extent.1 ∧ row < g.extent.2) →
        g.read x y = Number.ofNat 0 := by
  intro g
  refine ⟨isLeast_boxes source writes, ?_, ?_, ?_, fun o ho => countTo_outlier ho, ?_⟩
  · intro w column row hnames
    rw [write_of_names hnames, ← apply_of_names hnames]
    exact ⟨rfl, extent_apply_of_names hnames⟩
  · intro w fault hfault
    rw [apply, hfault]
  · intro w
    obtain ⟨column, row, hnames, -⟩ | ⟨-, hsame⟩ := g.apply_cases w
    · rw [extent_apply_of_names hnames]
      exact ⟨le_max_left _ _, le_max_left _ _⟩
    · rw [hsame]
  · intro x y column row hx hy hout
    exact read_eq_zero_of_outside hx hy hout

/-- A write outside a program of two cells and a refused one.  A written zero in the last column
that a write can reach makes the extent as wide as it can be, and its rows stay. -/
theorem extent_is_least_box_up_to_last_column :
    let number := Number.ofNat
    let writes : List Write :=
      [⟨number 3, number 14, number 65536⟩, ⟨Number.ofInt (-1), number 20, number 6⟩]
    let far : Write := ⟨number (2 ^ 64 - 2048), number 0, number 0⟩
    let g := (ofSource "ab").after writes
    g.extent = (4, 15) ∧ (g.apply far).extent = (2 ^ 64 - 2047, 15) ∧
      g.read (number 4) (number 0) = number 0 := by
  intro number writes far g
  have hextent : g.extent = (4, 15) := by decide +kernel
  have hfar : far.Names (2 ^ 64 - 2048) 0 :=
    ⟨Number.index?_eq_some.mp (by decide +kernel), Number.index?_eq_some.mp (by decide +kernel)⟩
  have hvalue : ∀ n ∈ [0, 4], Number.value? (number n) = some (n : ℚ) := by
    have hnatural : ∀ n ∈ [0, 4], Number.natural? (number n) = some n := by decide +kernel
    exact fun n hn => Number.natural?_eq_some_iff.mp (hnatural n hn)
  obtain ⟨-, hgrows, -, -, -, hzero⟩ := extent_is_least_box "ab" writes
  refine ⟨hextent, ?_, ?_⟩
  · rw [(hgrows far _ _ hfar).2, hextent]
    decide
  · refine hzero _ _ 4 0 (hvalue 4 (by decide)) (hvalue 0 (by decide)) ?_
    rw [hextent]
    decide

end Grid

end Aquarium
