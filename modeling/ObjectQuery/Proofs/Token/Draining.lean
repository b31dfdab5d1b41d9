import ObjectQuery.Proofs.Token.Scan

/-!
Contract: a text is read by asking a reader for tokens until the end of input.

Owns:
- `Lexer.Drains`, a reader that is asked for tokens and never past its end, and
  `Lexer.start_drains`: this is how `tokenize` reads;
- that the end of input is the last token and no other.

Does not own: which tokens a text has.
-/

namespace ObjectQuery

variable {lexer other later : Lexer} {token : Token} {tokens : List Token}
variable {outcome : Except Error (List Token)}

theorem byteLength_toList (source : String) : byteLength source.toList = source.utf8ByteSize := by
  conv_rhs => rw [← String.ofList_toList (s := source)]
  rw [String.utf8ByteSize_ofList]
  induction source.toList with
  | nil => rfl
  | cons c text inductionHypothesis =>
    rw [byteLength_cons, inductionHypothesis, String.utf8Len_cons, Nat.add_comm]

namespace Lexer

/-- What a reader hands out when it is asked for tokens up to the end of input or to a failure.
There is no rule for a reader that is asked again behind its end. -/
inductive Drains : Lexer → Except Error (List Token) → Prop where
  | last {lexer later : Lexer} {token : Token}
      (step : lexer.next = (.token token, later))
      (ends : token.kind = .endOfInput) : Drains lexer (.ok [token])
  | failure {lexer later : Lexer} {error : Error}
      (step : lexer.next = (.failure error, later)) : Drains lexer (.error error)
  | more {lexer later : Lexer} {token : Token} {outcome : Except Error (List Token)}
      (step : lexer.next = (.token token, later))
      (inside : token.kind ≠ .endOfInput)
      (behind : Drains later outcome) : Drains lexer (outcome.map (token :: ·))

theorem Drains.of_next
    (same : lexer.next = other.next)
    (drains : other.Drains outcome) :
    lexer.Drains outcome := by
  cases drains with
  | last step ends => exact .last (same.trans step) ends
  | failure step => exact .failure (same.trans step)
  | more step inside behind => exact .more (same.trans step) inside behind

/-- The end of input is handed out once, as the last token. -/
theorem Drains.last_only (drains : lexer.Drains (.ok tokens)) :
    ∃ front last, tokens = front ++ [last] ∧ last.kind = .endOfInput ∧
      ∀ token ∈ front, token.kind ≠ .endOfInput := by
  generalize given : Except.ok tokens = outcome at drains
  induction drains generalizing tokens with
  | @last _ _ token step ends =>
    obtain rfl := Except.ok.inj given
    exact ⟨[], token, rfl, ends, by simp⟩
  | failure step => cases given
  | @more _ _ token outcome step inside behind inductionHypothesis =>
    cases outcome with
    | error error => cases given
    | ok others =>
      obtain rfl : tokens = token :: others := Except.ok.inj given
      obtain ⟨front, last, rfl, ends, noneBefore⟩ := inductionHypothesis rfl
      exact ⟨token :: front, last, rfl, ends, List.forall_mem_cons.mpr ⟨inside, noneBefore⟩⟩

/-- No piece of a text is taken for the end of input. -/
theorem kind_first_ne_endOfInput
    {c : Char}
    {text : List Char}
    {kind : TokenKind}
    (first : (Lexeme.first c text).kind = some kind) :
    kind ≠ .endOfInput := by
  rintro rfl
  have noSymbol : ∀ symbol ∈ symbols, symbol.1 ≠ .endOfInput := by decide
  have piece : firstPiece c text = (some .endOfInput, (firstPiece c text).2) := by
    rw [← first]
    rfl
  rcases symbol_of_firstPiece piece with isRun | isSymbol
  · simp at isRun
  · exact noSymbol _ isSymbol rfl

section Steps

variable {keepBlanks : Bool} {position : Nat} {c : Char} {text : List Char} {kind : TokenKind}

theorem next_nil :
    next ⟨[], position, keepBlanks, false⟩ =
      (.token (Token.endOfInput position), ⟨[], position, keepBlanks, true⟩) := by
  rw [next, if_neg Bool.false_ne_true, nextFrom]

theorem next_refused (first : (Lexeme.first c text).kind = none) :
    next ⟨c :: text, position, keepBlanks, false⟩ =
      (.failure (.invalidCharacter c position),
        ⟨(Lexeme.first c text).rest, position + byteLength (Lexeme.first c text).text, keepBlanks,
          false⟩) := by
  rw [next, if_neg Bool.false_ne_true, nextFrom]
  simp only [first]

theorem next_blank
    (first : (Lexeme.first c text).kind = some kind)
    (passed : kind = .blank ∧ !keepBlanks) :
    next ⟨c :: text, position, keepBlanks, false⟩ =
      next ⟨(Lexeme.first c text).rest, position + byteLength (Lexeme.first c text).text,
        keepBlanks, false⟩ := by
  rw [next, if_neg Bool.false_ne_true, nextFrom, next, if_neg Bool.false_ne_true]
  simp only [first, if_pos passed]

theorem next_token
    (first : (Lexeme.first c text).kind = some kind)
    (kept : ¬(kind = .blank ∧ !keepBlanks)) :
    next ⟨c :: text, position, keepBlanks, false⟩ =
      (.token ⟨kind, String.ofList (Lexeme.first c text).text, position⟩,
        ⟨(Lexeme.first c text).rest, position + byteLength (Lexeme.first c text).text, keepBlanks,
          false⟩) := by
  rw [next, if_neg Bool.false_ne_true, nextFrom]
  simp only [first, if_neg kept]

end Steps

/-- Each piece is handed out, passed over or refused. -/
theorem drains_scanFrom (keepBlanks : Bool) (position : Nat) (text : List Char) :
    Drains ⟨text, position, keepBlanks, false⟩ (do
      let tokens ← Token.scanFrom keepBlanks position text
      pure (tokens ++ [Token.endOfInput (position + byteLength text)])) := by
  induction text using pieces_induction generalizing position with
  | nil =>
    rw [Token.scanFrom]
    exact .last next_nil rfl
  | piece c text inductionHypothesis =>
    have behind := inductionHypothesis (position + byteLength (Lexeme.first c text).text)
    rw [Nat.add_assoc, ← byteLength_append, Lexeme.text_append_rest] at behind
    cases first : (Lexeme.first c text).kind with
    | none =>
      rw [Token.scanFrom_of_refused first]
      exact .failure (next_refused first)
    | some kind =>
      rw [Token.scanFrom_first first]
      by_cases passed : kind = .blank ∧ !keepBlanks
      · apply Drains.of_next (next_blank first passed)
        simp only [if_pos passed]
        cases read : Token.scanFrom keepBlanks _ (Lexeme.first c text).rest with
        | error error => rwa [read] at behind
        | ok tokens => rwa [read] at behind
      · have drained :=
          Drains.more (next_token first passed) (kind_first_ne_endOfInput first) behind
        simp only [if_neg passed]
        cases read : Token.scanFrom keepBlanks _ (Lexeme.first c text).rest with
        | error error => rwa [read] at drained
        | ok tokens => rwa [read] at drained

/-- The tokens of a text are those that a reader of it hands out up to the end of input. -/
theorem start_drains (keepBlanks : Bool) (source : String) :
    (start keepBlanks source).Drains (tokenize keepBlanks source) := by
  have drained := drains_scanFrom keepBlanks 0 source.toList
  rwa [Nat.zero_add, byteLength_toList] at drained

end Lexer

end ObjectQuery
