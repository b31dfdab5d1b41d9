import Mathlib.Data.List.Basic
import ObjectQuery.Text.Quoted
import ObjectQuery.Token.Lexer

/-!
Contract: the words of a text.

Owns:
- `words`, the longest runs of letters, digits and underscores, each without the digits it begins
  with;
- the words of joined and of quoted texts;
- `toList_toLower` and `toLower_eq`, a text in lower case by its letters.

Does not own: what a word means.
-/

namespace ObjectQuery.Text

/-- Letters are turned to lower case one by one. -/
theorem toList_toLower (text : String) : text.toLower.toList = text.toList.map Char.toLower :=
  String.toList_map

theorem toLower_eq
    {text lower : String}
    (letters : text.toList.map Char.toLower = lower.toList) :
    text.toLower = lower := by
  apply String.toList_injective
  rw [toList_toLower, letters]

theorem toLower_ofList (letters : List Char) :
    (String.ofList letters).toLower = String.ofList (letters.map Char.toLower) := by
  apply toLower_eq
  rw [String.toList_ofList, String.toList_ofList]

/-- The words of a text in lower case. Digits in front of a word do not belong to it, and a run of
digits leaves an empty word. -/
def words (text : List Char) : List (List Char) :=
  (text.splitOnP fun c => !isWordPart c).map fun run =>
    (run.dropWhile Char.isDigit).map Char.toLower

variable {c delimiter : Char} {word text before after : List Char}

/-- Words end where something else stands. -/
theorem words_append (other : isWordPart c = false) (before after : List Char) :
    words (before ++ c :: after) = words before ++ words after := by
  rw [words, List.splitOnP_append_cons before after (by simp [other]), List.map_append]
  rfl

theorem mem_words_append_iff (other : isWordPart c = false) :
    word ∈ words (before ++ c :: after) ↔ word ∈ words before ∨ word ∈ words after := by
  rw [words_append other, List.mem_append]

/-- A word behind other characters is a word by itself. -/
theorem mem_words_behind_iff {gap : List Char}
    (others : ∀ c ∈ gap, isWordPart c = false)
    (nonempty : word ≠ []) : word ∈ words (gap ++ after) ↔ word ∈ words after := by
  induction gap with
  | nil => rfl
  | cons c rest inductionHypothesis =>
    obtain ⟨ofFirst, ofRest⟩ := List.forall_mem_cons.mp others
    have split : word ∈ words ([] ++ c :: (rest ++ after)) ↔
        word ∈ words [] ∨ word ∈ words (rest ++ after) := mem_words_append_iff ofFirst
    have none : word ∉ words [] := by simpa [words] using nonempty
    rw [List.cons_append, ← inductionHypothesis ofRest]
    exact split.trans (or_iff_right none)

/-- Between words something else stands, and no word is lost. -/
theorem mem_words_gap_iff {gap : List Char}
    (isGap : gap ≠ [])
    (others : ∀ c ∈ gap, isWordPart c = false)
    (nonempty : word ≠ []) :
    word ∈ words (before ++ (gap ++ after)) ↔ word ∈ words before ∨ word ∈ words after := by
  obtain ⟨c, rest, rfl⟩ := List.exists_cons_of_ne_nil isGap
  obtain ⟨ofFirst, ofRest⟩ := List.forall_mem_cons.mp others
  rw [List.cons_append, mem_words_append_iff ofFirst, mem_words_behind_iff ofRest nonempty]

/-- What stands between separators is part of the text. -/
theorem subset_of_mem_splitOnP {separates : Char → Bool} {run : List Char}
    (isRun : run ∈ text.splitOnP separates) : run ⊆ text := by
  induction text generalizing run with
  | nil =>
    rw [List.mem_singleton.mp isRun]
    exact List.nil_subset _
  | cons c rest inductionHypothesis =>
    rw [List.splitOnP_cons_eq_if_modifyHead] at isRun
    split at isRun
    · rcases List.mem_cons.mp isRun with rfl | later
      · exact List.nil_subset _
      · exact List.subset_cons_of_subset c (inductionHypothesis later)
    · cases runs : rest.splitOnP separates with
      | nil => exact absurd runs (List.splitOnP_ne_nil _ rest)
      | cons first others =>
        rw [runs] at isRun inductionHypothesis
        rcases List.mem_cons.mp isRun with rfl | later
        · exact List.cons_subset_cons c (inductionHypothesis List.mem_cons_self)
        · exact List.subset_cons_of_subset c
            (inductionHypothesis (List.mem_cons_of_mem first later))

/-- The characters of a word are those of the text. -/
theorem exists_of_mem_words {d : Char} (isWord : word ∈ words text) (member : d ∈ word) :
    ∃ c ∈ text, c.toLower = d := by
  obtain ⟨run, isRun, rfl⟩ := List.mem_map.mp isWord
  obtain ⟨c, inRun, rfl⟩ := List.mem_map.mp member
  have inText := subset_of_mem_splitOnP isRun
  exact ⟨c, inText ((List.dropWhile_suffix _).subset inRun), rfl⟩

/-- Doubling a delimiter changes no word. By induction on the quoted text, with what stands in front
of it. -/
theorem mem_words_escape_iff (other : isWordPart delimiter = false) (nonempty : word ≠ []) :
    word ∈ words (before ++ Quoted.escape delimiter text) ↔ word ∈ words (before ++ text) := by
  induction text generalizing before with
  | nil => rfl
  | cons c rest inductionHypothesis =>
    rw [Quoted.escape]
    by_cases same : c = delimiter
    · subst same
      have behind : word ∈ words (Quoted.escape c rest) ↔ word ∈ words rest :=
        @inductionHypothesis []
      have again : word ∈ words ([c] ++ Quoted.escape c rest) ↔ word ∈ words (Quoted.escape c rest) :=
        mem_words_behind_iff (by simpa using other) nonempty
      rw [if_pos rfl, mem_words_append_iff other, mem_words_append_iff other]
      exact or_congr_right (again.trans behind)
    · have behind := @inductionHypothesis (before ++ [c])
      simpa [same] using behind

/-! ## Connectives -/

/-- The words that conditions are joined with. -/
def connectives : List (List Char) :=
  [['a', 'n', 'd'], ['o', 'r']]

/-- A character of no connective. -/
def Quiet (c : Char) : Prop :=
  c.toLower ≠ 'd' ∧ c.toLower ≠ 'r'

instance : DecidablePred Quiet :=
  fun c => inferInstanceAs (Decidable (c.toLower ≠ 'd' ∧ c.toLower ≠ 'r'))

theorem connective_ne_nil (connective : word ∈ connectives) : word ≠ [] := by
  have nonempty : ∀ word ∈ connectives, word ≠ [] := by decide
  exact nonempty word connective

theorem not_mem_words_of_quiet
    (connective : word ∈ connectives)
    (quiet : ∀ c ∈ text, Quiet c) : word ∉ words text := by
  intro isWord
  have loud : ∀ word ∈ connectives, 'd' ∈ word ∨ 'r' ∈ word := by decide
  rcases loud word connective with isLetter | isLetter
  · obtain ⟨c, member, same⟩ := exists_of_mem_words isWord isLetter
    exact (quiet c member).1 same
  · obtain ⟨c, member, same⟩ := exists_of_mem_words isWord isLetter
    exact (quiet c member).2 same

end ObjectQuery.Text
