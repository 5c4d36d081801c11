import Aquarium.Proofs.Grid.Memory

/-!
# What is kept outside the program extent

What a grid reads does not tell everything about its outliers: an outlier of value zero reads like
no outlier at all, but it counts for the extent and for the text of the grid.  The outliers are
known by their members instead.  Outside the program extent, a place that was written has one
outlier, with the value written there last, and a place that was not written keeps what it had
(`mem_outliers_after`).

Together with what it reads this determines a tidy grid (`Tidy.ext`), and so the grid after some
writes depends on nothing but the last write to each place (`after_congr`).
-/

namespace Aquarium

namespace Outlier

variable {row column : Nat} {v : Float} {os : List Outlier}

/-- The outlier is at the given place. -/
def IsAt (o : Outlier) (column row : Nat) : Prop := o.row = row ∧ o.column = column

instance (o : Outlier) (column row : Nat) : Decidable (o.IsAt column row) :=
  inferInstanceAs (Decidable (_ ∧ _))

lemma Before.asymm {a b : Outlier} (h : Before a b) : ¬ Before b a := by
  simp only [Before] at h ⊢
  omega

lemma Before.not_isAt {a b : Outlier} (h : Before a b) : ¬ a.IsAt b.column b.row := by
  simp only [Before] at h
  simp only [IsAt]
  omega

/-- Ordered outliers are at different places. -/
lemma eq_of_isAt (h : os.Pairwise Before) {a b : Outlier} (ha : a ∈ os) (hb : b ∈ os)
    (hab : a.IsAt b.column b.row) : a = b := by
  induction os with
  | nil => cases ha
  | cons first rest ih =>
      obtain ⟨hfirst, hrest⟩ := List.pairwise_cons.mp h
      rcases List.mem_cons.mp ha with rfl | ha'
      · rcases List.mem_cons.mp hb with rfl | hb'
        · rfl
        · exact absurd hab (hfirst b hb').not_isAt
      · rcases List.mem_cons.mp hb with rfl | hb'
        · exact absurd ⟨hab.1.symm, hab.2.symm⟩ (hfirst a ha').not_isAt
        · exact ih hrest ha' hb'

/-- Ordered outliers with the same members are the same. -/
lemma eq_of_mem_iff {os' : List Outlier} (h : os.Pairwise Before) (h' : os'.Pairwise Before)
    (hmem : ∀ o, o ∈ os ↔ o ∈ os') : os = os' := by
  have hne {a b : Outlier} (hab : Before a b) : a ≠ b := by
    rintro rfl
    exact hab.asymm hab
  refine List.Perm.eq_of_pairwise (fun a b _ _ hab hba => absurd hba hab.asymm) h h' ?_
  exact (List.perm_ext_iff_of_nodup (h.imp hne) (h'.imp hne)).mpr hmem

lemma mem_put_self : ⟨row, column, v⟩ ∈ put row column v os := by
  induction os with
  | nil => simp [put]
  | cons first rest ih =>
      simp only [put]
      split_ifs
      · exact List.mem_cons_self
      · exact List.mem_cons_of_mem _ ih
      · exact List.mem_cons_self

/-- At other places the outliers stay. -/
lemma mem_put_of_not_isAt {o : Outlier} (ho : ¬ o.IsAt column row) :
    o ∈ put row column v os ↔ o ∈ os := by
  have hnew : o ≠ ⟨row, column, v⟩ := by
    rintro rfl
    exact ho ⟨rfl, rfl⟩
  induction os with
  | nil => simp [put, hnew]
  | cons first rest ih =>
      simp only [put]
      split_ifs with hplace hprecedes
      · have hfirst : o ≠ first := by
          rintro rfl
          exact ho hplace
        simp [hnew, hfirst]
      · simp [ih]
      · simp [hnew]

/-- **Putting a value replaces one member**, or adds it. -/
lemma mem_put_iff (h : os.Pairwise Before) (o : Outlier) :
    o ∈ put row column v os ↔ if o.IsAt column row then o.value = v else o ∈ os := by
  split_ifs with ho
  · constructor
    · intro hmem
      exact congrArg Outlier.value (eq_of_isAt (pairwise_put h) hmem mem_put_self ho)
    · rintro rfl
      obtain ⟨rfl, rfl⟩ := ho
      exact mem_put_self
  · exact mem_put_of_not_isAt ho

end Outlier

namespace Write

/-- A write names at most one place. -/
lemma Names.unique {w : Write} {column row column' row' : Nat} (h : w.Names column row)
    (h' : w.Names column' row') : column = column' ∧ row = row' :=
  ⟨Number.IsIndex.unique h.1 h'.1, Number.IsIndex.unique h.2 h'.2⟩

variable {column row : Nat} {writes : List Write}

lemma exists_mem_of_last? {v : Float} (h : last? column row writes = some v) :
    ∃ w ∈ writes, w.Names column row ∧ w.value = v := by
  induction writes with
  | nil => cases h
  | cons w later ih =>
      rw [last?, Option.or_eq_some_iff] at h
      obtain hlater | ⟨-, hfirst⟩ := h
      · obtain ⟨w', hw', hnames⟩ := ih hlater
        exact ⟨w', List.mem_cons_of_mem _ hw', hnames⟩
      · rw [Option.ite_none_right_eq_some, Option.some.injEq] at hfirst
        exact ⟨w, List.mem_cons_self, hfirst⟩

/-- A place has a last write if it was written. -/
lemma last?_isSome_iff : (last? column row writes).isSome ↔ ∃ w ∈ writes, w.Names column row := by
  induction writes with
  | nil => simp [last?]
  | cons w later ih =>
      rw [last?, Option.isSome_or, Bool.or_eq_true, ih]
      simp [or_comm]

end Write

namespace Grid

variable {g : Grid}

/-- A change of one place changes the outlier of this place, if it is outside the program extent. -/
lemma mem_outliers_set (h : g.Tidy) (column row : Nat) (v : Float) (o : Outlier) :
    o ∈ (g.set column row v).outliers ↔
      if o.IsAt column row then ¬ g.inProgram column row ∧ o.value = v else o ∈ g.outliers := by
  unfold set
  split_ifs with hin hplace hplace
  · -- The place is in the program extent, where no outlier is.
    obtain ⟨rfl, rfl⟩ := hplace
    refine iff_of_false (fun ho => h.outside o ho (inProgram_iff.mp hin)) ?_
    exact fun ⟨hout, _⟩ => hout hin
  · exact Iff.rfl
  · rw [Outlier.mem_put_iff h.ordered, if_pos hplace]
    exact (and_iff_right hin).symm
  · rw [Outlier.mem_put_iff h.ordered, if_neg hplace]

lemma mem_outliers_apply (h : g.Tidy) (w : Write) (o : Outlier) :
    o ∈ (g.apply w).outliers ↔
      if w.Names o.column o.row then ¬ g.inProgram o.column o.row ∧ o.value = w.value
      else o ∈ g.outliers := by
  obtain ⟨column, row, hnames, hset⟩ | ⟨hnone, hsame⟩ := g.apply_cases w
  · rw [hset, mem_outliers_set h]
    by_cases hplace : o.IsAt column row
    · obtain ⟨rfl, rfl⟩ := hplace
      rw [if_pos ⟨rfl, rfl⟩, if_pos hnames]
    · rw [if_neg hplace, if_neg fun ho => hplace (ho.unique hnames).symm]
  · rw [hsame, if_neg (hnone _ _)]

lemma inProgram_apply (w : Write) (column row : Nat) :
    (g.apply w).inProgram column row = g.inProgram column row := by
  obtain ⟨hwidth, hheight⟩ := sizes_after g [w]
  simp only [after_cons, after_nil] at hwidth hheight
  rw [inProgram, inProgram, hwidth, hheight]

/-- **Outliers are last writes.**  After some writes an outlier is what was written last at its
place outside the program extent, or it was there before and its place was not written. -/
lemma mem_outliers_after (h : g.Tidy) (writes : List Write) (o : Outlier) :
    o ∈ (g.after writes).outliers ↔
      match Write.last? o.column o.row writes with
      | some v => ¬ g.inProgram o.column o.row ∧ o.value = v
      | none => o ∈ g.outliers := by
  induction writes generalizing g with
  | nil => rfl
  | cons w later ih =>
      rw [after_cons, ih (h.apply w), Write.last?, inProgram_apply, mem_outliers_apply h]
      cases Write.last? o.column o.row later with
      | some v => rfl
      | none =>
          split_ifs <;> rfl

/-! ## Equal grids -/

/-- A place in the array is the place of its row and column. -/
lemma getElem?_cells (h : g.Filled) {i : Nat} (hi : i < g.cells.size) :
    g.cells[i]? = some (g.get (i % g.width) (i / g.width)) := by
  have hsize : i < g.height * g.width := by
    rw [Nat.mul_comm]
    exact h ▸ hi
  have hwidth : 0 < g.width := Nat.pos_of_mul_pos_left (Nat.zero_lt_of_lt hsize)
  have hin : g.inProgram (i % g.width) (i / g.width) = true :=
    inProgram_iff.mpr ⟨Nat.mod_lt i hwidth, Nat.div_lt_of_lt_mul (by rwa [Nat.mul_comm])⟩
  rw [get, if_pos hin, Nat.div_add_mod', Array.getElem?_eq_getElem hi, Option.getD_some]

/-- A tidy grid is determined by its sizes, by what it reads and by its outliers. -/
lemma Tidy.ext {g' : Grid} (h : g.Tidy) (h' : g'.Tidy) (hwidth : g.width = g'.width)
    (hheight : g.height = g'.height) (hget : ∀ column row, g.get column row = g'.get column row)
    (hmem : ∀ o, o ∈ g.outliers ↔ o ∈ g'.outliers) : g = g' := by
  have hsize : g.cells.size = g'.cells.size := by
    rw [h.filled, h'.filled, hwidth, hheight]
  have hcells : g.cells = g'.cells := by
    refine Array.ext_getElem? fun i => ?_
    rcases Nat.lt_or_ge i g.cells.size with hi | hi
    · rw [getElem?_cells h.filled hi, getElem?_cells h'.filled (hsize ▸ hi), hget, hwidth]
    · rw [Array.getElem?_eq_none hi, Array.getElem?_eq_none (hsize ▸ hi)]
  have houtliers := Outlier.eq_of_mem_iff h.ordered h'.ordered hmem
  cases g
  cases g'
  simp_all

/-- **Only the last writes count.**  Two histories that agree in the last write to each place make
the same grid. -/
lemma after_congr (h : g.Tidy) {writes writes' : List Write}
    (hlast : ∀ column row, Write.last? column row writes = Write.last? column row writes') :
    g.after writes = g.after writes' := by
  obtain ⟨hwidth, hheight⟩ := sizes_after g writes
  obtain ⟨hwidth', hheight'⟩ := sizes_after g writes'
  refine (h.after writes).ext (h.after writes') (hwidth.trans hwidth'.symm)
    (hheight.trans hheight'.symm) ?_ ?_
  · intro column row
    rw [get_after h, get_after h, hlast]
  · intro o
    rw [mem_outliers_after h, mem_outliers_after h, hlast]

end Grid

end Aquarium
