import Aquarium.Text.Lines
import Mathlib.Tactic

/-!
# Lines and their endings

A text is cut at its newlines, and a carriage return before a newline, or at the end of the text,
is taken off the line.  The two steps are separate, so a line with its ending can be any characters
without a newline: the first step finds it again (`splitLines_intercalate`), and the second one
takes at most one carriage return from it (`getElem?_dropReturn`).

A `Line` is what is left, and `written` puts lines together to a text, each with or without a
carriage return.  Whatever the choice, the lines of the text are the lines it was written from
(`lines_written`).

The last line of a text is special, because more characters can follow it
(`exists_splitLines_append`).
-/

namespace Aquarium.Text

/-! ## Cutting at newlines -/

lemma splitLines_eq_splitOn (cs : List Char) : splitLines cs = cs.splitOn '\n' := by
  induction cs with
  | nil => rfl
  | cons c cs ih =>
      rw [splitLines, List.splitOn_cons_eq_if_modifyHead, ih]
      simp only [beq_iff_eq]
      split_ifs
      · rfl
      · cases hcs : cs.splitOn '\n' with
        | nil => exact absurd hcs (List.splitOn_ne_nil _ _)
        | cons line rest => rfl

/-- Lines that are joined by newlines are found again. -/
lemma splitLines_intercalate {lines : List (List Char)} (hne : lines ≠ [])
    (h : ∀ line ∈ lines, '\n' ∉ line) : splitLines (['\n'].intercalate lines) = lines := by
  rw [splitLines_eq_splitOn, List.splitOn_intercalate '\n' h hne]

/-- No line has a newline in it. -/
lemma newline_not_mem_of_mem_splitLines (cs : List Char) :
    ∀ line ∈ splitLines cs, '\n' ∉ line := by
  induction cs with
  | nil => simp [splitLines]
  | cons c cs ih =>
      rw [splitLines]
      split_ifs with hc
      · simpa using ih
      · rcases hcs : splitLines cs with _ | ⟨line, rest⟩
        · simp [Ne.symm hc]
        · rw [hcs, List.forall_mem_cons] at ih
          refine List.forall_mem_cons.mpr ⟨?_, ih.2⟩
          simp [ih.1, Ne.symm hc]

/-- A newline at the end begins one more line, which is empty. -/
lemma splitLines_concat_newline (cs : List Char) :
    splitLines (cs ++ ['\n']) = splitLines cs ++ [[]] := by
  simp only [splitLines_eq_splitOn, List.splitOn_append_cons_self, List.splitOn_nil]

/-- The last line of a text goes on with what is appended to the text, up to a newline.  It ends
in a carriage return if the text does. -/
lemma exists_splitLines_append (cs : List Char) : ∃ before last,
    (last.getLast? = some '\r' ↔ cs.getLast? = some '\r') ∧
      ∀ tail, '\n' ∉ tail → splitLines (cs ++ tail) = before ++ [last ++ tail] := by
  induction cs using List.reverseRecOn with
  | nil =>
      refine ⟨[], [], Iff.rfl, fun tail htail => ?_⟩
      rw [splitLines_eq_splitOn, List.nil_append, List.splitOn_eq_singleton htail]
      rfl
  | append_singleton cs c ih =>
      by_cases hc : c = '\n'
      · subst hc
        refine ⟨splitLines cs, [], by simp, fun tail htail => ?_⟩
        simp only [splitLines_eq_splitOn, List.append_assoc, List.singleton_append,
          List.splitOn_append_cons_self, List.splitOn_eq_singleton htail, List.nil_append]
      · obtain ⟨before, last, -, hsplit⟩ := ih
        refine ⟨before, last ++ [c], by simp, fun tail htail => ?_⟩
        rw [List.append_assoc, List.append_assoc]
        exact hsplit (c :: tail) (by simp [htail, Ne.symm hc])

/-! ## Carriage returns -/

lemma dropReturn_of_ne {line : List Char} (h : line.getLast? ≠ some '\r') :
    dropReturn line = line :=
  if_neg h

lemma dropReturn_concat_return (line : List Char) : dropReturn (line ++ ['\r']) = line := by
  simp [dropReturn]

/-- A carriage return is missing from the last place, and nothing else. -/
lemma getElem?_dropReturn (chars : List Char) (i : Nat) :
    (dropReturn chars)[i]? =
      if i + 1 = chars.length ∧ chars[i]? = some '\r' then none else chars[i]? := by
  by_cases h : chars.getLast? = some '\r'
  · obtain ⟨start, rfl⟩ := List.getLast?_eq_some_iff.mp h
    rw [dropReturn_concat_return]
    rcases Nat.lt_trichotomy i start.length with hlt | rfl | hgt
    · rw [if_neg (by simp; omega), List.getElem?_append_left hlt]
    · simp
    · rw [if_neg (by simp; omega), List.getElem?_eq_none hgt.le,
        List.getElem?_eq_none (by simp; omega)]
  · rw [dropReturn_of_ne h, if_neg]
    rintro ⟨hi, hlast⟩
    rw [List.getLast?_eq_getElem?, ← hi, Nat.add_sub_cancel] at h
    exact h hlast

lemma newline_not_mem_of_mem_lines (s : String) : ∀ line ∈ lines s, '\n' ∉ line := by
  intro line hline
  obtain ⟨piece, hpiece, rfl⟩ := List.mem_map.mp hline
  have hnewline := newline_not_mem_of_mem_splitLines s.toList piece hpiece
  unfold dropReturn
  split_ifs
  · exact fun hmem => hnewline (List.mem_of_mem_dropLast hmem)
  · exact hnewline

/-! ## The end of a text -/

lemma stripLineEnd_of_not_suffix {t : String} (h : ¬ ['\n'] <:+ t.toList) :
    stripLineEnd t = t := by
  rw [List.singleton_suffix_iff_getLast?_eq_some] at h
  rw [stripLineEnd, dropLineEnd, if_neg h, String.ofList_toList]

lemma lines_concat_newline (cs : List Char) :
    lines (String.ofList (cs ++ ['\n'])) = (splitLines cs).map dropReturn ++ [[]] := by
  rw [lines, String.toList_ofList, splitLines_concat_newline, List.map_append]
  rfl

lemma stripLineEnd_concat_newline (cs : List Char) :
    stripLineEnd (String.ofList (cs ++ ['\n'])) = String.ofList (dropReturn cs) := by
  rw [stripLineEnd, String.toList_ofList, dropLineEnd, if_pos List.getLast?_concat,
    List.dropLast_concat]

/-- Without a carriage return at its end a text has the same lines, but for the last one, which can
lose another carriage return. -/
lemma exists_lines_dropReturn (cs : List Char) : ∃ before last,
    (splitLines cs).map dropReturn = before ++ [last] ∧
      (splitLines (dropReturn cs)).map dropReturn = before ++ [dropReturn last] ∧
      (last.getLast? = some '\r' ↔ ['\r', '\r'] <:+ cs) := by
  by_cases hcs : cs.getLast? = some '\r'
  · obtain ⟨start, rfl⟩ := List.getLast?_eq_some_iff.mp hcs
    obtain ⟨before, last, hlast, hsplit⟩ := exists_splitLines_append start
    have hstart : splitLines start = before ++ [last] := by simpa using hsplit [] List.not_mem_nil
    refine ⟨before.map dropReturn, last, ?_, ?_, ?_⟩
    · rw [hsplit _ (by simp), List.map_append, List.map_singleton, dropReturn_concat_return]
    · rw [dropReturn_concat_return, hstart, List.map_append, List.map_singleton]
    · rw [hlast, ← List.singleton_suffix_iff_getLast?_eq_some]
      exact (@List.suffix_append_self_iff _ ['\r'] start ['\r']).symm
  · obtain ⟨before, last, hlast, hsplit⟩ := exists_splitLines_append cs
    have hlines : splitLines cs = before ++ [last] := by simpa using hsplit [] List.not_mem_nil
    have hnone : last.getLast? ≠ some '\r' := fun h => hcs (hlast.mp h)
    refine ⟨before.map dropReturn, last, ?_, ?_, iff_of_false hnone ?_⟩
    · rw [hlines, List.map_append, List.map_singleton, dropReturn_of_ne hnone]
    · rw [dropReturn_of_ne hcs, hlines, List.map_append, List.map_singleton]
    · rintro ⟨start, rfl⟩
      simp at hcs

/-- A text that ends in a newline loses its last line, which is empty, with the line ending.  If a
carriage return goes with it, then the line before has become the end of the text, and can lose
another one. -/
lemma exists_lines_stripLineEnd {t : String} (h : ['\n'] <:+ t.toList) : ∃ before last,
    lines t = before ++ [last] ++ [[]] ∧ lines (stripLineEnd t) = before ++ [dropReturn last] ∧
      (last.getLast? = some '\r' ↔ ['\r', '\r', '\n'] <:+ t.toList) := by
  obtain ⟨cs, ht⟩ := h
  obtain rfl : t = String.ofList (cs ++ ['\n']) := by rw [ht, String.ofList_toList]
  obtain ⟨before, last, hlines, hdropped, hlast⟩ := exists_lines_dropReturn cs
  refine ⟨before, last, ?_, ?_, ?_⟩
  · rw [lines_concat_newline, hlines]
  · rw [stripLineEnd_concat_newline, lines, String.toList_ofList, hdropped]
  · rw [hlast, String.toList_ofList]
    exact (@List.suffix_append_self_iff _ ['\r', '\r'] cs ['\n']).symm

/-! ## Texts written from lines -/

/-- A line of a text: it has no newline, and it does not end in a carriage return, which would be
taken for a part of its ending. -/
structure Line where
  chars : List Char
  newline_not_mem : '\n' ∉ chars
  getLast?_ne_return : chars.getLast? ≠ some '\r'

/-- What stands behind a line before its newline, or before the end of the text. -/
def ending (returned : Bool) : List Char := if returned then ['\r'] else []

/-- The text of some lines.  It is chosen for each of them whether its ending has a carriage
return. -/
def written (lines : List Line) (returned : Nat → Bool) : String :=
  String.ofList (['\n'].intercalate
    (lines.mapIdx fun row line => line.chars ++ ending (returned row)))

lemma dropReturn_append_ending (line : Line) (returned : Bool) :
    dropReturn (line.chars ++ ending returned) = line.chars := by
  cases returned with
  | true => exact dropReturn_concat_return line.chars
  | false =>
      rw [ending, if_neg Bool.false_ne_true, List.append_nil]
      exact dropReturn_of_ne line.getLast?_ne_return

lemma newline_not_mem_append_ending (line : Line) (returned : Bool) :
    '\n' ∉ line.chars ++ ending returned := by
  cases returned <;> simp [ending, line.newline_not_mem]

/-- **A text has the lines it was written from, whatever their endings.** -/
theorem lines_written {ls : List Line} (hne : ls ≠ [])
    (returned : Nat → Bool) :
    Text.lines (written ls returned) = ls.map Line.chars := by
  have hsplit : splitLines (written ls returned).toList =
      ls.mapIdx fun row line => line.chars ++ ending (returned row) := by
    rw [written, String.toList_ofList]
    refine splitLines_intercalate (by simpa using hne) fun line hline => ?_
    obtain ⟨row, _, rfl⟩ := List.mem_mapIdx.mp hline
    exact newline_not_mem_append_ending _ _
  rw [lines, hsplit]
  refine List.ext_getElem? fun row => ?_
  simp only [List.getElem?_map, List.getElem?_mapIdx, Option.map_map]
  congr 1
  funext line
  exact dropReturn_append_ending line _

end Aquarium.Text
