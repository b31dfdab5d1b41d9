import ObjectQuery.Proofs.Expr.RawText
import ObjectQuery.Proofs.Text.Outline

/-!
Contract: the parentheses among the tokens of a text are those outside its string literals.

Owns: that a raw text which can be read closes all brackets and literals it opens.

Does not own: what is read.
-/

namespace ObjectQuery

open Text (Flat Place)

variable {c : Char} {kind : TokenKind} {text more rest : List Char}

theorem flat_of_isTokenBlank (isBlank : isTokenBlank c = true) : Flat c := by
  refine ⟨?_, ?_, ?_⟩ <;> rintro rfl <;> exact absurd isBlank (by decide)

theorem flat_of_isWordPart (part : isWordPart c = true) : Flat c := by
  refine ⟨?_, ?_, ?_⟩ <;> rintro rfl <;> exact absurd part (by decide)

theorem flat_of_isNumberPart (part : isNumberPart c = true) : Flat c := by
  refine ⟨?_, ?_, ?_⟩ <;> rintro rfl <;> exact absurd part (by decide)

/-- A name has neither brackets nor quotes. -/
theorem flat_of_isName {name : List Char} (isName : IsName name) : ∀ c ∈ name, Flat c := by
  obtain ⟨first, others, rfl, start, inside⟩ := isName
  refine List.forall_mem_cons.mpr ⟨flat_of_isWordPart ?_, fun c member =>
    flat_of_isWordPart (inside c member)⟩
  rw [isWordStart, Bool.or_eq_true] at start
  rcases start with letter | underscore
  · simp [isWordPart, Char.isAlphanum, letter]
  · simp [isWordPart, underscore]

/-- Pieces other than strings and parentheses open and close nothing. -/
theorem flat_of_firstPiece
    (first : firstPiece c (more ++ rest) = (some kind, more.length))
    (noString : kind ≠ .string)
    (notOpening : kind ≠ .leftParen)
    (notClosing : kind ≠ .rightParen) : ∀ d ∈ c :: more, Flat d := by
  have spelled := spelled_of_firstPiece first
  rw [List.take_left] at spelled
  rcases symbol_of_firstPiece first with isRun | isSymbol
  · simp only [List.mem_cons, List.not_mem_nil, or_false] at isRun
    rcases isRun with rfl | rfl | rfl | rfl
    · exact fun d member => flat_of_isTokenBlank (spelled d member)
    · obtain ⟨digit, parts, split, isDigit, inside⟩ : IsNumber (c :: more) := spelled
      rw [split]
      exact List.forall_mem_cons.mpr ⟨flat_of_isNumberPart (by simp [isNumberPart, isDigit]),
        fun d member => flat_of_isNumberPart (inside d member)⟩
    · exact flat_of_isName spelled
    · exact absurd rfl noString
  · rw [List.take_left] at isSymbol
    have flat : ∀ symbol ∈ symbols, symbol.1 = .leftParen ∨ symbol.1 = .rightParen ∨
        symbol.2.all (Flat ·) = true := by decide
    rcases flat _ isSymbol with isOpening | isClosing | isFlat
    · exact absurd isOpening notOpening
    · exact absurd isClosing notClosing
    · exact fun d member => of_decide_eq_true (List.all_eq_true.mp isFlat d member)

/-- Where the tokens of a text close what they open, its characters do. By induction on the tokens,
with the brackets that are open in front of them. -/
theorem Token.Scans.exists_read {position depth : Nat} {tokens : List Token}
    (scans : Scans position text tokens)
    (balanced : Grammar.Balanced (depth + 1) (tokens.map (·.kind))) :
    ∃ seen, Place.read ⟨depth, false⟩ text = some (Place.outside, seen) := by
  induction scans generalizing depth with
  | nil =>
    have isOutside : depth = 0 := by
      have atMost : depth + 1 ≤ 1 := balanced
      omega
    subst isOutside
    exact ⟨[], rfl⟩
  | blank isBlank _ inductionHypothesis =>
    obtain ⟨seen, reads⟩ := inductionHypothesis balanced
    exact ⟨_, Place.read_cons (Place.behind_flat (flat_of_isTokenBlank isBlank)) reads⟩
  | @piece position c kind text more rest tokens solid split first _ inductionHypothesis =>
    subst split
    have spelled := spelled_of_firstPiece first
    rw [List.take_left] at spelled
    rw [List.map_cons] at balanced
    rw [← List.cons_append]
    by_cases isString : kind = .string
    · subst isString
      obtain ⟨content, quoted⟩ := spelled
      obtain ⟨seen, reads⟩ := inductionHypothesis balanced
      obtain ⟨_, ofQuoted, -⟩ := Place.read_quoted depth content
      rw [quoted]
      exact ⟨_, Place.read_append ofQuoted reads⟩
    · by_cases opens : kind = .leftParen
      · subst opens
        obtain ⟨seen, reads⟩ := inductionHypothesis balanced
        rw [show c :: more = ['('] from spelled]
        exact ⟨_, Place.read_cons rfl reads⟩
      · by_cases closes : kind = .rightParen
        · subst closes
          obtain ⟨deeper, balancedRest⟩ : 1 < depth + 1 ∧ Grammar.Balanced depth _ := balanced
          obtain ⟨outer, rfl⟩ : ∃ outer, depth = outer + 1 := ⟨depth - 1, by omega⟩
          obtain ⟨seen, reads⟩ := inductionHypothesis balancedRest
          rw [show c :: more = [')'] from spelled]
          exact ⟨_, Place.read_cons rfl reads⟩
        · rw [Grammar.Balanced] at balanced
          · obtain ⟨seen, reads⟩ := inductionHypothesis balanced
            have flat := flat_of_firstPiece first isString opens closes
            exact ⟨_, Place.read_append (Place.read_flat depth flat) reads⟩
          · exact opens
          · exact closes

/-- A raw text that can be read closes what it opens. -/
theorem Grammar.RawReadable.exists_outline {raw : String} (readable : RawReadable raw.toList) :
    ∃ seen, Text.outline raw = some seen := by
  obtain ⟨-, position, tokens, scans, balanced⟩ := readable
  obtain ⟨seen, reads⟩ : ∃ seen, Place.outside.read raw.toList = some (Place.outside, seen) :=
    scans.exists_read balanced
  exact ⟨seen, Text.outline_eq_some_iff.mpr reads⟩

end ObjectQuery
