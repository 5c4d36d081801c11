import Aquarium.Instruction
import Mathlib.Tactic

/-!
# The instruction set

Decoding asks one family of instructions after the other.  The families do not overlap, so the
order does not matter, and the instruction set can be written down as one list: the sixteen digits
and the `catalogue` of all other characters.  `ofChar?_eq_some_iff` says that decoding knows
exactly these.
-/

namespace Aquarium

namespace Instruction

/-- The characters of the digits. -/
def digits : List Char :=
  ['0', '1', '2', '3', '4', '5', '6', '7', '8', '9', 'a', 'b', 'c', 'd', 'e', 'f']

/-- The other characters that stand for an instruction, with the instruction. -/
def catalogue : List (Char × Instruction) :=
  [('>', .mirror (.arrow .east)), ('<', .mirror (.arrow .west)), ('^', .mirror (.arrow .north)),
    ('v', .mirror (.arrow .south)), ('/', .mirror .slash), ('\\', .mirror .backslash),
    ('|', .mirror .vertical), ('_', .mirror .horizontal), ('#', .mirror .reverse),
    ('x', .mirror .random),
    ('+', .arithmetic .add), ('-', .arithmetic .sub), ('*', .arithmetic .mul),
    (',', .arithmetic .div), ('%', .arithmetic .mod), ('=', .arithmetic .eq),
    (')', .arithmetic .gt), ('(', .arithmetic .lt),
    (':', .stack .duplicate), ('~', .stack .drop), ('$', .stack .swap), ('@', .stack .rotate),
    ('\x7d', .stack .shiftRight), ('\x7b', .stack .shiftLeft), ('r', .stack .reverse),
    ('l', .stack .length), ('[', .stack .openFrame), (']', .stack .closeFrame),
    ('&', .stack .register),
    ('g', .grid .get), ('p', .grid .put),
    ('!', .skip), ('?', .skipIfZero), ('.', .jump), ('\'', .string '\''), ('"', .string '"'),
    ('o', .printChar), ('n', .printNumber), ('i', .input), (';', .halt), (' ', .idle)]

/-- All characters that stand for an instruction. -/
def symbols : List Char := digits ++ catalogue.map Prod.fst

/-- A character between two others has a code point between theirs, and there are few of them. -/
lemma mem_digits_of_digit? {c : Char} {d : Nat} (h : digit? c = some d) : c ∈ digits := by
  have hrange : (48 ≤ c.toNat ∧ c.toNat ≤ 57) ∨ (97 ≤ c.toNat ∧ c.toNat ≤ 102) := by
    unfold digit? at h
    split_ifs at h with hdecimal hletter
    · exact Or.inl hdecimal
    · exact Or.inr hletter
  rw [← Char.ofNat_toNat c]
  generalize c.toNat = n at hrange
  rcases hrange with ⟨hlow, hhigh⟩ | ⟨hlow, hhigh⟩ <;> interval_cases n <;> decide

lemma digit?_isSome_of_mem : ∀ c ∈ digits, (digit? c).isSome := List.all_eq_true.mp (by decide)

lemma ofChar?_of_mem_catalogue : ∀ entry ∈ catalogue, ofChar? entry.1 = some entry.2 := by decide

/-- Decoding knows the digits and the catalogue, and nothing else. -/
theorem ofChar?_eq_some_iff {c : Char} {i : Instruction} :
    ofChar? c = some i ↔
      (∃ d, digit? c = some d ∧ i = .literal (Number.ofNat d)) ∨ (c, i) ∈ catalogue := by
  constructor
  · intro h
    simp only [ofChar?, Option.orElse_eq_some, Option.map_eq_some_iff] at h
    obtain ⟨d, hd, rfl⟩ | ⟨-, ⟨m, hm, rfl⟩ | ⟨-, ⟨op, hop, rfl⟩ | ⟨-, ⟨s, hs, rfl⟩ |
      ⟨-, ⟨g, hg, rfl⟩ | ⟨-, hsingle⟩⟩⟩⟩⟩ := h
    · exact Or.inl ⟨d, hd, rfl⟩
    all_goals right
    · unfold Mirror.ofChar? at hm
      split at hm <;> cases hm <;> decide
    · unfold Operator.ofChar? at hop
      split at hop <;> cases hop <;> decide
    · unfold StackCommand.ofChar? at hs
      split at hs <;> cases hs <;> decide
    · unfold GridCommand.ofChar? at hg
      split at hg <;> cases hg <;> decide
    · unfold single? at hsingle
      split at hsingle <;> cases hsingle <;> decide
  · rintro (⟨d, hd, rfl⟩ | hmem)
    · simp [ofChar?, hd]
    · exact ofChar?_of_mem_catalogue (c, i) hmem

/-- A character is an instruction exactly if it is one of the symbols. -/
theorem ofChar?_eq_none_iff {c : Char} : ofChar? c = none ↔ c ∉ symbols := by
  rw [← not_iff_not, not_not, ← ne_eq, Option.ne_none_iff_exists', symbols, List.mem_append]
  constructor
  · rintro ⟨i, hi⟩
    obtain ⟨d, hd, -⟩ | hmem := ofChar?_eq_some_iff.mp hi
    · exact Or.inl (mem_digits_of_digit? hd)
    · exact Or.inr (List.mem_map.mpr ⟨_, hmem, rfl⟩)
  · rintro (hdigit | hmem)
    · obtain ⟨d, hd⟩ := Option.isSome_iff_exists.mp (digit?_isSome_of_mem c hdigit)
      exact ⟨_, ofChar?_eq_some_iff.mpr (Or.inl ⟨d, hd, rfl⟩)⟩
    · obtain ⟨entry, hentry, rfl⟩ := List.mem_map.mp hmem
      exact ⟨entry.2, ofChar?_of_mem_catalogue entry hentry⟩

/-! ## One character for one instruction -/

/-- No instruction is listed twice. -/
lemma symbol_unique_in_catalogue :
    ∀ entry ∈ catalogue, ∀ entry' ∈ catalogue, entry.2 = entry'.2 → entry.1 = entry'.1 := by
  decide

lemma not_literal_of_mem {c : Char} {i : Instruction} (h : (c, i) ∈ catalogue) (v : Float) :
    i ≠ .literal v := by
  have hall : (catalogue.all fun | (_, .literal _) => false | _ => true) = true := by decide
  rintro rfl
  exact absurd (List.all_eq_true.mp hall _ h) Bool.false_ne_true

/-- An instruction of the catalogue has one character. -/
lemma ofChar?_eq_iff_of_mem {c₀ : Char} {i : Instruction} (h : (c₀, i) ∈ catalogue) {c : Char} :
    ofChar? c = some i ↔ c = c₀ := by
  constructor
  · intro hc
    obtain ⟨d, -, hliteral⟩ | hmem := ofChar?_eq_some_iff.mp hc
    · exact absurd hliteral (not_literal_of_mem h _)
    · exact symbol_unique_in_catalogue _ hmem _ h rfl
  · rintro rfl
    exact ofChar?_of_mem_catalogue _ h

lemma ofChar?_eq_input_iff {c : Char} : ofChar? c = some .input ↔ c = 'i' :=
  ofChar?_eq_iff_of_mem (by decide)

lemma ofChar?_eq_printChar_iff {c : Char} : ofChar? c = some .printChar ↔ c = 'o' :=
  ofChar?_eq_iff_of_mem (by decide)

lemma ofChar?_eq_printNumber_iff {c : Char} : ofChar? c = some .printNumber ↔ c = 'n' :=
  ofChar?_eq_iff_of_mem (by decide)

lemma ofChar?_eq_random_iff {c : Char} : ofChar? c = some (.mirror .random) ↔ c = 'x' :=
  ofChar?_eq_iff_of_mem (by decide)

/-- The characters of a family of instructions without literals. -/
def family (p : Instruction → Bool) : List Char :=
  (catalogue.filter fun entry => p entry.2).map Prod.fst

/-- A family without literals is known by its characters. -/
lemma mem_family {p : Instruction → Bool} (hp : ∀ v, p (.literal v) = false) {c : Char}
    {i : Instruction} (hc : ofChar? c = some i) (hi : p i = true) : c ∈ family p := by
  obtain ⟨d, -, rfl⟩ | hmem := ofChar?_eq_some_iff.mp hc
  · rw [hp] at hi
    cases hi
  · exact List.mem_map.mpr ⟨(c, i), List.mem_filter.mpr ⟨hmem, hi⟩, rfl⟩

end Instruction

end Aquarium
