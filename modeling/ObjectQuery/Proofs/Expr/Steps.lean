import ObjectQuery.Expr.Parser
import ObjectQuery.Proofs.Success

/-!
Contract: when a reader of one token succeeds.

Owns:
- the conditions under which a token, a word or a name is read or skipped;
- what the tokens are that join two operands, and what they join them to.

Does not own: the forms that these steps make up.
-/

namespace ObjectQuery

theorem Token.kind_of_isWord
    {word : String}
    {token : Token}
    (isWord : token.isWord word = true) :
    token.kind = .word := by
  rw [Token.isWord, Bool.and_eq_true, beq_iff_eq] at isWord
  exact isWord.1

theorem Token.lower_of_isWord
    {word : String}
    {token : Token}
    (isWord : token.isWord word = true) :
    token.lower = word := by
  rw [Token.isWord, Bool.and_eq_true, beq_iff_eq, beq_iff_eq] at isWord
  exact isWord.2

namespace Grammar

variable {kind : TokenKind} {word name : String} {token : Token} {tokens rest : List Token}

theorem expect_eq_ok :
    expect kind tokens = .ok (token, rest) ↔ tokens = token :: rest ∧ token.kind = kind := by
  cases tokens with
  | nil => simp [expect]
  | cons first others =>
    by_cases fits : first.kind = kind
    · simp only [expect, fits, if_true, Except.ok.injEq, Prod.mk.injEq, List.cons.injEq]
      constructor
      · rintro ⟨rfl, rfl⟩
        exact ⟨⟨rfl, rfl⟩, fits⟩
      · exact fun equal => equal.1
    · simp only [expect, fits, if_false, reduceCtorEq, List.cons.injEq, false_iff]
      rintro ⟨⟨rfl, -⟩, same⟩
      exact fits same

theorem expectWord_eq_ok :
    expectWord word tokens = .ok (token, rest) ↔
      tokens = token :: rest ∧ token.isWord word = true := by
  cases tokens with
  | nil => simp [expectWord]
  | cons first others =>
    by_cases fits : first.isWord word = true
    · simp only [expectWord, fits, if_true, Except.ok.injEq, Prod.mk.injEq, List.cons.injEq]
      constructor
      · rintro ⟨rfl, rfl⟩
        exact ⟨⟨rfl, rfl⟩, fits⟩
      · exact fun equal => equal.1
    · simp only [expectWord, fits, if_false, reduceCtorEq, List.cons.injEq, false_iff]
      rintro ⟨⟨rfl, -⟩, same⟩
      exact fits same

theorem identifier_eq_ok :
    identifier tokens = .ok (name, rest) ↔
      ∃ token, tokens = token :: rest ∧ token.kind = .word ∧ token.text = name := by
  unfold identifier
  rw [bind_eq_ok]
  constructor
  · rintro ⟨⟨token, rest'⟩, found, equal⟩
    obtain ⟨rfl, rfl⟩ : token.text = name ∧ rest' = rest := by simpa using equal
    obtain ⟨rfl, kind⟩ := expect_eq_ok.mp found
    exact ⟨token, rfl, kind, rfl⟩
  · rintro ⟨token, rfl, kind, rfl⟩
    exact ⟨(token, rest), expect_eq_ok.mpr ⟨rfl, kind⟩, rfl⟩

/-! ### Words that are looked at -/

theorem startsWithWord_eq_true :
    startsWithWord word tokens = true ↔
      ∃ token rest, tokens = token :: rest ∧ token.isWord word = true := by
  cases tokens with
  | nil => simp [startsWithWord]
  | cons first others => simp [startsWithWord]

theorem startsWith_eq_true :
    startsWith kind tokens = true ↔ ∃ token rest, tokens = token :: rest ∧ token.kind = kind := by
  cases tokens with
  | nil => simp [startsWith]
  | cons first others => simp [startsWith]

theorem startsWith_cons : startsWith kind (token :: rest) = (token.kind == kind) :=
  rfl

theorem skipWord_eq_true :
    skipWord word tokens = (true, rest) ↔
      ∃ token, tokens = token :: rest ∧ token.isWord word = true := by
  cases tokens with
  | nil => simp [skipWord]
  | cons first others =>
    by_cases isWord : first.isWord word = true
    · simp only [skipWord, isWord, if_true, Prod.mk.injEq, true_and, List.cons.injEq]
      constructor
      · rintro rfl
        exact ⟨first, ⟨rfl, rfl⟩, isWord⟩
      · rintro ⟨-, ⟨-, equal⟩, -⟩
        exact equal
    · simp only [skipWord, isWord, if_false, Prod.mk.injEq, Bool.false_eq_true, false_and,
        List.cons.injEq, false_iff]
      rintro ⟨token, ⟨equal, -⟩, same⟩
      rw [← equal] at same
      exact isWord same

theorem skipWord_eq_false :
    skipWord word tokens = (false, rest) ↔
      rest = tokens ∧ startsWithWord word tokens = false := by
  cases tokens with
  | nil => simp [skipWord, startsWithWord, eq_comm]
  | cons first others =>
    by_cases isWord : first.isWord word = true <;>
      simp [skipWord, startsWithWord, isWord, eq_comm]

/-- What is left behind a word that may be skipped is an end of the tokens. -/
theorem skipWord_suffix (word : String) (tokens : List Token) :
    (skipWord word tokens).2 <:+ tokens := by
  cases tokens with
  | nil => simp [skipWord]
  | cons first others =>
    by_cases isWord : first.isWord word = true
    · simp [skipWord, isWord]
    · simp [skipWord, isWord]

/-- What is left behind a direction is an end of the tokens. -/
theorem direction_suffix (tokens : List Token) : (direction tokens).2 <:+ tokens := by
  unfold direction
  split
  · rename_i rest skipped
    obtain ⟨token, rfl, -⟩ := skipWord_eq_true.mp skipped
    exact List.suffix_cons ..
  · rename_i rest skipped
    obtain ⟨rfl, -⟩ := skipWord_eq_false.mp skipped
    exact skipWord_suffix "asc" rest

/-! ### Tokens that are operators -/

section Operators

variable {join : Expr → Expr → Expr}

theorem orOperator?_cases (joins : orOperator? token = some join) :
    join = .or ∧ (token.isWord "or" = true ∨ token.kind = .doubleBar) := by
  unfold orOperator? at joins
  split at joins
  · next found => exact ⟨(Option.some.inj joins).symm, by simpa using found⟩
  · cases joins

theorem andOperator?_cases (joins : andOperator? token = some join) :
    join = .and ∧ (token.isWord "and" = true ∨ token.kind = .doubleAmpersand) := by
  unfold andOperator? at joins
  split at joins
  · next found => exact ⟨(Option.some.inj joins).symm, by simpa using found⟩
  · cases joins

theorem sumOperator?_cases (joins : sumOperator? token = some join) :
    (∃ op, join = .binary op) ∧ (token.kind = .plus ∨ token.kind = .minus) := by
  unfold sumOperator? at joins
  split at joins
  · next plus => exact ⟨⟨.add, (Option.some.inj joins).symm⟩, .inl plus⟩
  · next minus => exact ⟨⟨.subtract, (Option.some.inj joins).symm⟩, .inr minus⟩
  · cases joins

theorem productOperator?_cases (joins : productOperator? token = some join) :
    (∃ op, join = .binary op) ∧
      (token.kind = .star ∨ token.kind = .slash ∨ token.kind = .percent) := by
  unfold productOperator? at joins
  split at joins
  · next star => exact ⟨⟨.multiply, (Option.some.inj joins).symm⟩, .inl star⟩
  · next slash => exact ⟨⟨.divide, (Option.some.inj joins).symm⟩, .inr (.inl slash)⟩
  · next percent => exact ⟨⟨.modulo, (Option.some.inj joins).symm⟩, .inr (.inr percent)⟩
  · cases joins

end Operators

/-- The operators are no parentheses. -/
def Unbracketed (operator? : Token → Option (Expr → Expr → Expr)) : Prop :=
  ∀ token join, operator? token = some join → token.kind ≠ .leftParen ∧ token.kind ≠ .rightParen

theorem orOperator?_unbracketed : Unbracketed orOperator? := by
  intro token join joins
  obtain ⟨-, isWord | isSymbol⟩ := orOperator?_cases joins
  · simp [Token.kind_of_isWord isWord]
  · simp [isSymbol]

theorem andOperator?_unbracketed : Unbracketed andOperator? := by
  intro token join joins
  obtain ⟨-, isWord | isSymbol⟩ := andOperator?_cases joins
  · simp [Token.kind_of_isWord isWord]
  · simp [isSymbol]

theorem sumOperator?_unbracketed : Unbracketed sumOperator? := by
  intro token join joins
  obtain ⟨-, isSymbol | isSymbol⟩ := sumOperator?_cases joins <;> simp [isSymbol]

theorem productOperator?_unbracketed : Unbracketed productOperator? := by
  intro token join joins
  obtain ⟨-, isSymbol | isSymbol | isSymbol⟩ := productOperator?_cases joins <;> simp [isSymbol]

end Grammar

end ObjectQuery
