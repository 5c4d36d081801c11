import Aquarium.Proofs.Grid.Outliers

/-!
# Histories of writes

A write makes all earlier writes to its place irrelevant, and writes to different places do not
interfere.  So a history of writes can be thinned out to the last write to each place
(`Write.standing`), and these can be done in any order: the grid is the same, not only in what it
reads but in both of its storages.

That is a matter of histories alone.  A grid depends on nothing but the last write to each place
(`Grid.after_congr`), thinning out keeps these (`last?_standing`), and where all writes go to
different places their order has no influence on which is the last (`last?_eq_of_perm`).
-/

namespace Aquarium

deriving instance DecidableEq for Write

namespace Write

/-- The column and the row of the place that a write goes to.  A write that is refused goes to no
place. -/
def place? (w : Write) : Option (Nat × Nat) :=
  match Number.index? w.x, Number.index? w.y with
  | some column, some row => some (column, row)
  | _, _ => none

/-- The writes of a history that are still standing at its end: those with no later write to the
same place. -/
def standing : List Write → List Write
  | [] => []
  | w :: later =>
      if ∃ w' ∈ later, w'.place? = w.place? then standing later else w :: standing later

lemma place?_eq_some_iff {w : Write} {column row : Nat} :
    w.place? = some (column, row) ↔ w.Names column row := by
  unfold Names
  rw [← Number.index?_eq_some, ← Number.index?_eq_some, place?]
  cases Number.index? w.x with
  | none => simp
  | some c =>
      cases Number.index? w.y with
      | none => simp
      | some r => simp

variable {column row : Nat} {writes : List Write}

/-! ## Thinning out -/

lemma standing_sublist (writes : List Write) : (standing writes).Sublist writes := by
  induction writes with
  | nil => exact List.Sublist.slnil
  | cons w later ih =>
      rw [standing]
      split_ifs
      · exact ih.cons w
      · exact ih.cons_cons w

/-- No two writes that are still standing go to the same place. -/
lemma nodup_standing (writes : List Write) : ((standing writes).map place?).Nodup := by
  induction writes with
  | nil => exact List.nodup_nil
  | cons w later ih =>
      rw [standing]
      split_ifs with hlater
      · exact ih
      · rw [List.map_cons, List.nodup_cons]
        refine ⟨fun hmem => hlater ?_, ih⟩
        obtain ⟨w', hw', hplace⟩ := List.mem_map.mp hmem
        exact ⟨w', (standing_sublist later).subset hw', hplace⟩

/-- Thinning out keeps the last write to each place. -/
lemma last?_standing (column row : Nat) (writes : List Write) :
    last? column row (standing writes) = last? column row writes := by
  induction writes with
  | nil => rfl
  | cons w later ih =>
      rw [standing]
      split_ifs with hlater
      · -- Where the write goes, a later one goes, which is the last one in either case.
        rw [ih, last?]
        by_cases hnames : w.Names column row
        · obtain ⟨w', hw', hplace⟩ := hlater
          rw [place?_eq_some_iff.mpr hnames, place?_eq_some_iff] at hplace
          obtain ⟨v, hv⟩ := Option.isSome_iff_exists.mp (last?_isSome_iff.mpr ⟨w', hw', hplace⟩)
          rw [hv, Option.some_or]
        · rw [if_neg hnames, Option.or_none]
      · rw [last?, last?, ih]

/-! ## Reordering -/

/-- Of writes to different places each one is the last. -/
lemma last?_eq_some_iff (h : (writes.map place?).Nodup) {v : Float} :
    last? column row writes = some v ↔ ∃ w ∈ writes, w.Names column row ∧ w.value = v := by
  refine ⟨exists_mem_of_last?, ?_⟩
  rintro ⟨w, hw, hnames, rfl⟩
  obtain ⟨v, hv⟩ := Option.isSome_iff_exists.mp (last?_isSome_iff.mpr ⟨w, hw, hnames⟩)
  obtain ⟨w', hw', hnames', rfl⟩ := exists_mem_of_last? hv
  have hsame : w'.place? = w.place? := by
    rw [place?_eq_some_iff.mpr hnames, place?_eq_some_iff.mpr hnames']
  rw [hv, List.inj_on_of_nodup_map h hw' hw hsame]

/-- The order of writes to different places does not matter. -/
lemma last?_eq_of_perm {writes' : List Write} (h : (writes.map place?).Nodup)
    (hperm : writes'.Perm writes) (column row : Nat) :
    last? column row writes' = last? column row writes := by
  have h' : (writes'.map place?).Nodup := (hperm.map place?).nodup_iff.mpr h
  refine Option.ext fun v => ?_
  rw [last?_eq_some_iff h, last?_eq_some_iff h']
  simp only [hperm.mem_iff]

end Write

namespace Grid

/-- **Histories of writes have a normal form.**  Load any source and make any writes.  The grid is
the same if only the last write to each place is made, in whatever order.  In particular two
further writes to different places can be made in either order.  (A refused write changes nothing,
whether it is kept or not.) -/
theorem normal_form_of_writes (source : String) (writes : List Write) :
    (∀ kept : List Write, kept.Perm (Write.standing writes) →
      (ofSource source).after kept = (ofSource source).after writes) ∧
      ∀ w w' : Write, w.place? ≠ w'.place? →
        (((ofSource source).after writes).apply w).apply w' =
          (((ofSource source).after writes).apply w').apply w := by
  have htidy := tidy_ofSource source
  constructor
  · intro kept hkept
    refine after_congr htidy fun column row => ?_
    rw [Write.last?_eq_of_perm (Write.nodup_standing writes) hkept, Write.last?_standing]
  · intro w w' hdiffer
    have hnodup : ([w', w].map Write.place?).Nodup := by
      simpa using hdiffer.symm
    exact after_congr (htidy.after writes) (Write.last?_eq_of_perm hnodup (List.Perm.swap w' w []))

/-- A place of the program and two places outside are written, two of the three twice.  The three
last writes make the same grid in another order, with the outlier of value zero. -/
theorem normal_form_of_writes_overwritten :
    let number := Number.ofNat
    let writes : List Write :=
      [⟨number 5, number 2, number 8⟩, ⟨number 1, number 0, number 7⟩,
        ⟨number 0, number 1, number 6⟩, ⟨number 5, number 2, number 0⟩,
        ⟨number 1, number 0, number 9⟩]
    let kept : List Write :=
      [⟨number 1, number 0, number 9⟩, ⟨number 5, number 2, number 0⟩,
        ⟨number 0, number 1, number 6⟩]
    (ofSource "ab").after writes = (ofSource "ab").after kept ∧
      ((ofSource "ab").after kept).outliers = [⟨1, 0, number 6⟩, ⟨2, 5, number 0⟩] := by
  intro number writes kept
  have hkept : kept.Perm (Write.standing writes) := by decide +kernel
  exact ⟨((normal_form_of_writes "ab" writes).1 kept hkept).symm, by decide +kernel⟩

end Grid

end Aquarium
