import Mathlib.Data.List.Forall2
import ObjectQuery.Value.Operators

/-!
Contract: a text fits a wildcard pattern when it can be cut into pieces for it.

A pattern is decided by a table with an entry for each suffix of the text. The table of a pattern is
made from the table of its rest: behind a run of any length some later suffix has to fit the rest,
and any other character asks for one character in front.

Owns:
- `Fits` and `Cut`, which pieces a pattern character stands for and how they make up a text;
- the meaning of the table, and with it of the wildcard comparison.

Does not own: which values have a text.
-/

namespace ObjectQuery

namespace Text.Like

/-- The pattern character stands for the piece. -/
def Fits (p : Char) (piece : List Char) : Prop :=
  if p = '%' then True else if p = '_' then piece.length = 1 else piece = [p]

/-- The text is a row of pieces that the pattern characters stand for, one for each. -/
def Cut (pattern text : List Char) : Prop :=
  ∃ pieces, List.Forall₂ Fits pattern pieces ∧ pieces.flatten = text

variable {p c : Char} {pattern pattern' text text' : List Char}

/-- By induction on the pattern, of which each character has its piece. -/
theorem matches_iff_cut : Matches pattern text ↔ Cut pattern text := by
  constructor
  · intro cut
    induction cut with
    | nil => exact ⟨[], .nil, rfl⟩
    | run piece _ inductionHypothesis =>
      obtain ⟨pieces, each, rfl⟩ := inductionHypothesis
      exact ⟨piece :: pieces, .cons (by simp [Fits]) each, rfl⟩
    | one c _ inductionHypothesis =>
      obtain ⟨pieces, each, rfl⟩ := inductionHypothesis
      exact ⟨[c] :: pieces, .cons (by simp [Fits]) each, rfl⟩
    | self c plain _ inductionHypothesis =>
      obtain ⟨pieces, each, rfl⟩ := inductionHypothesis
      exact ⟨[c] :: pieces, .cons (by simp [Fits, plain]) each, rfl⟩
  · rintro ⟨pieces, each, rfl⟩
    induction each with
    | nil => exact .nil
    | @cons p piece pattern pieces fits _ inductionHypothesis =>
      unfold Fits at fits
      by_cases isRun : p = '%'
      · subst isRun
        exact .run piece inductionHypothesis
      · rw [if_neg isRun] at fits
        by_cases isOne : p = '_'
        · subst isOne
          rw [if_pos rfl] at fits
          obtain ⟨c, rfl⟩ := List.length_eq_one_iff.mp fits
          exact .one c inductionHypothesis
        · rw [if_neg isOne] at fits
          subst fits
          exact .self p ⟨isRun, isOne⟩ inductionHypothesis

theorem Matches.append
    (first : Matches pattern text)
    (second : Matches pattern' text') : Matches (pattern ++ pattern') (text ++ text') := by
  induction first with
  | nil => exact second
  | run piece _ inductionHypothesis =>
    rw [List.cons_append, List.append_assoc]
    exact .run piece inductionHypothesis
  | one c _ inductionHypothesis => exact .one c inductionHypothesis
  | self c plain _ inductionHypothesis => exact .self c plain inductionHypothesis

/-! ## One character in front of a pattern -/

theorem matches_run_iff :
    Matches ('%' :: pattern) text ↔ ∃ piece rest, text = piece ++ rest ∧ Matches pattern rest := by
  constructor
  · intro cut
    cases cut with
    | run piece cut => exact ⟨piece, _, rfl, cut⟩
    | self _ plain _ => exact absurd rfl plain.1
  · rintro ⟨piece, rest, rfl, cut⟩
    exact .run piece cut

/-- A run is empty or takes the first character. -/
theorem matches_run_cons :
    Matches ('%' :: pattern) (c :: text) ↔
      Matches pattern (c :: text) ∨ Matches ('%' :: pattern) text := by
  constructor
  · intro cut
    obtain ⟨piece, rest, whole, behind⟩ := matches_run_iff.mp cut
    cases piece with
    | nil =>
      left
      rw [whole]
      exact behind
    | cons first piece =>
      right
      obtain ⟨-, rfl⟩ := List.cons.inj whole
      exact .run piece behind
  · rintro (empty | taken)
    · exact .run [] empty
    · obtain ⟨piece, rest, rfl, cut⟩ := matches_run_iff.mp taken
      exact .run (c :: piece) cut

theorem matches_run_nil : Matches ('%' :: pattern) [] ↔ Matches pattern [] := by
  constructor
  · intro cut
    obtain ⟨piece, rest, whole, cut⟩ := matches_run_iff.mp cut
    obtain ⟨rfl, rfl⟩ := List.append_eq_nil_iff.mp whole.symm
    exact cut
  · exact .run []

/-- Any other character takes one in front. -/
theorem matches_one_iff (notRun : p ≠ '%') :
    Matches (p :: pattern) text ↔
      ∃ c rest, text = c :: rest ∧ (p = '_' ∨ p = c) ∧ Matches pattern rest := by
  constructor
  · intro cut
    cases cut with
    | run => exact absurd rfl notRun
    | one c cut => exact ⟨c, _, rfl, .inl rfl, cut⟩
    | self _ _ cut => exact ⟨p, _, rfl, .inr rfl, cut⟩
  · rintro ⟨c, rest, rfl, fits, cut⟩
    by_cases isOne : p = '_'
    · subst isOne
      exact .one c cut
    · obtain rfl := fits.resolve_left isOne
      exact .self p ⟨notRun, isOne⟩ cut

theorem matches_one_cons (notRun : p ≠ '%') :
    Matches (p :: pattern) (c :: text) ↔ (p = '_' ∨ p = c) ∧ Matches pattern text := by
  rw [matches_one_iff notRun]
  constructor
  · rintro ⟨_, _, whole, behind⟩
    obtain ⟨rfl, rfl⟩ := List.cons.inj whole
    exact behind
  · intro behind
    exact ⟨c, text, rfl, behind⟩

theorem not_matches_one_nil (notRun : p ≠ '%') : ¬Matches (p :: pattern) [] := by
  rw [matches_one_iff notRun]
  rintro ⟨_, _, whole, _⟩
  cases whole

/-! ## The table -/

/-- The table tells for each suffix of the text whether it fits the pattern. -/
inductive Tells (pattern : List Char) : List Char → List Bool → Prop
  | last {fits : Bool} (tells : fits = true ↔ Matches pattern []) : Tells pattern [] [fits]
  | cons {c : Char} {text : List Char} {fits : Bool} {rest : List Bool}
      (tells : fits = true ↔ Matches pattern (c :: text))
      (others : Tells pattern text rest) : Tells pattern (c :: text) (fits :: rest)

variable {table : List Bool}

/-- The first entry is about the whole text. -/
theorem Tells.headD (tells : Tells pattern text table) :
    table.headD false = true ↔ Matches pattern text := by
  cases tells <;> assumption

theorem tells_empty (text : List Char) :
    Tells [] text (text.map (fun _ => false) ++ [true]) := by
  induction text with
  | nil => exact .last ⟨fun _ => .nil, fun _ => rfl⟩
  | cons c text inductionHypothesis =>
    apply Tells.cons _ inductionHypothesis
    constructor
    · intro isTrue
      cases isTrue
    · intro cut
      cases cut

/-- In front of a run an entry is true where it or a later one was. -/
theorem Tells.orLater (tells : Tells pattern text table) :
    Tells ('%' :: pattern) text (orLater table) := by
  induction tells with
  | @last fits tells =>
    apply Tells.last
    show (fits || false) = true ↔ _
    rw [Bool.or_false, matches_run_nil, tells]
  | cons tells _ inductionHypothesis =>
    apply Tells.cons _ inductionHypothesis
    rw [matches_run_cons, ← tells, ← inductionHypothesis.headD, Bool.or_eq_true]

/-- Any other character asks for one in front of a suffix that fits. -/
theorem Tells.oneInFront (notRun : p ≠ '%') (tells : Tells pattern text table) :
    Tells (p :: pattern) text (oneInFront p text table.tail) := by
  induction tells with
  | last _ =>
    apply Tells.last
    simp [not_matches_one_nil notRun]
  | @cons c text fits rest _ others inductionHypothesis =>
    have isAbout := others.headD
    cases rest with
    | nil => cases others
    | cons first later =>
      apply Tells.cons _ inductionHypothesis
      rw [matches_one_cons notRun, ← isAbout, Bool.and_eq_true, Bool.or_eq_true, decide_eq_true_iff,
        decide_eq_true_iff]
      rfl

/-- By induction on the pattern. -/
theorem tells_suffixTable (pattern text : List Char) :
    Tells pattern text (suffixTable pattern text) := by
  induction pattern with
  | nil => exact tells_empty text
  | cons p pattern inductionHypothesis =>
    rw [suffixTable]
    by_cases isRun : p = '%'
    · subst isRun
      rw [if_pos rfl]
      exact inductionHypothesis.orLater
    · rw [if_neg isRun]
      exact inductionHypothesis.oneInFront isRun

theorem matchChars_iff_cut : matchChars pattern text = true ↔ Cut pattern text := by
  rw [← matches_iff_cut]
  exact (tells_suffixTable pattern text).headD

end Text.Like

open Text.Like

/-- Two texts are compared by the pattern, and are always either like it or not. A text is like a
pattern just when it can be cut into consecutive pieces, one for each character of the pattern: any
piece for `%`, a single character for `_`, and for every other character itself. So texts and
patterns can be joined. -/
theorem like_iff_cut (text pattern : String) :
    (Value.compare .like (.string text) (.string pattern) = .ok (some true) ↔
      Cut pattern.toList text.toList) ∧
    (Value.compare .like (.string text) (.string pattern) = .ok (some false) ↔
      ¬Cut pattern.toList text.toList) ∧
    ∀ text' pattern' : String,
      Text.like text pattern = true → Text.like text' pattern' = true →
        Text.like (text ++ text') (pattern ++ pattern') = true := by
  have compared : Value.compare .like (.string text) (.string pattern) =
      .ok (some (Text.like text pattern)) := rfl
  have decided : Text.like text pattern = true ↔ Cut pattern.toList text.toList :=
    matchChars_iff_cut
  refine ⟨?_, ?_, ?_⟩
  · rw [compared, ← decided]
    simp
  · rw [compared, ← decided]
    simp
  · intro text' pattern' first second
    unfold Text.like at first second ⊢
    rw [matchChars_iff_cut, ← matches_iff_cut] at first second ⊢
    rw [String.toList_append, String.toList_append]
    exact first.append second

/-- A line break belongs to a run, and a point in a pattern is a point. -/
theorem like_iff_cut_joined :
    Text.like "a\nb" "a%" = true ∧ Text.like "c.d" "_.d" = true ∧
      Text.like ("a\nb" ++ "c.d") ("a%" ++ "_.d") = true ∧
      Value.compare .like (.string "c+d") (.string "_.d") = .ok (some false) := by
  have first : Text.like "a\nb" "a%" = true := by decide
  have second : Text.like "c.d" "_.d" = true := by decide
  obtain ⟨_, _, joined⟩ := like_iff_cut "a\nb" "a%"
  obtain ⟨_, unlike, _⟩ := like_iff_cut "c+d" "_.d"
  refine ⟨first, second, joined "c.d" "_.d" first second, unlike.mpr ?_⟩
  rw [← matchChars_iff_cut]
  decide

end ObjectQuery
