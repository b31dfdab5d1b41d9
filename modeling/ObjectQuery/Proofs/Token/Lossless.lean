import ObjectQuery.Proofs.Token.Draining

/-!
Contract: cutting a text into tokens loses nothing.

Owns:
- `scanFrom_without_blanks`, reading with and without the blanks;
- `Token.Covers`, tokens that make up a text one behind the other;
- `Lossless`, what a reader hands out of a text whose blanks it keeps, and `lossless_of_drains`.

Does not own: which pieces there are.
-/

namespace ObjectQuery

variable {c : Char} {text : List Char} {kind : TokenKind} {keepBlanks : Bool} {position : Nat}
variable {token : Token} {tokens before after : List Token}

namespace Token

/-! ### One piece -/

/-- A text is read when its first piece is not refused and the rest is read. -/
theorem scanFrom_cons_eq_ok_iff :
    scanFrom keepBlanks position (c :: text) = .ok tokens ↔
      ∃ kind others, (Lexeme.first c text).kind = some kind ∧
        scanFrom keepBlanks (position + byteLength (Lexeme.first c text).text)
          (Lexeme.first c text).rest = .ok others ∧
        (if kind = .blank ∧ !keepBlanks then others
          else ⟨kind, String.ofList (Lexeme.first c text).text, position⟩ :: others) = tokens := by
  cases first : (Lexeme.first c text).kind with
  | none => simp [scanFrom_of_refused first]
  | some kind =>
    rw [scanFrom_first first]
    cases scanFrom keepBlanks _ (Lexeme.first c text).rest with
    | error error => simp [Except.map]
    | ok others => simp [Except.map]

/-- Blanks are passed over by leaving out their tokens. -/
theorem scanFrom_without_blanks (position : Nat) (text : List Char) :
    scanFrom false position text =
      (scanFrom true position text).map (List.filter fun token => token.kind != .blank) := by
  induction text using pieces_induction generalizing position with
  | nil =>
    rw [scanFrom, scanFrom]
    rfl
  | piece c text inductionHypothesis =>
    cases first : (Lexeme.first c text).kind with
    | none =>
      rw [scanFrom_of_refused first, scanFrom_of_refused first]
      rfl
    | some kind =>
      rw [scanFrom_first first, scanFrom_first first, inductionHypothesis]
      cases scanFrom true _ (Lexeme.first c text).rest with
      | error error => rfl
      | ok tokens => by_cases isBlank : kind = .blank <;> simp [Except.map, isBlank]

/-! ### All pieces -/

/-- The tokens make up a text that starts at a position: one stands behind the other, and none of
them is empty. -/
inductive Covers : Nat → List Char → List Token → Prop where
  | nil {position : Nat} : Covers position [] []
  | cons {position : Nat} {piece text : List Char} {kind : TokenKind} {tokens : List Token}
      (nonempty : piece ≠ [])
      (behind : Covers (position + byteLength piece) text tokens) :
      Covers position (piece ++ text) (⟨kind, String.ofList piece, position⟩ :: tokens)

/-- With its blanks a text is made up of its tokens. -/
theorem covers_of_scanFrom (scanned : scanFrom true position text = .ok tokens) :
    Covers position text tokens := by
  induction text using pieces_induction generalizing position tokens with
  | nil =>
    rw [scanFrom] at scanned
    rw [← Except.ok.inj scanned]
    exact .nil
  | piece c text inductionHypothesis =>
    obtain ⟨kind, others, -, behind, made⟩ := scanFrom_cons_eq_ok_iff.mp scanned
    rw [if_neg (by simp)] at made
    have nonempty : (Lexeme.first c text).text ≠ [] := List.cons_ne_nil _ _
    rw [← made, ← Lexeme.text_append_rest c text]
    exact .cons nonempty (inductionHypothesis behind)

theorem Covers.join_eq (covers : Covers position text tokens) :
    String.join (tokens.map (·.text)) = String.ofList text := by
  induction covers with
  | nil => rfl
  | cons nonempty behind inductionHypothesis =>
    rw [List.map_cons, String.join_cons, inductionHypothesis, String.ofList_append]

theorem Covers.text_ne_empty (covers : Covers position text tokens) :
    ∀ token ∈ tokens, token.text ≠ "" := by
  induction covers with
  | nil => exact List.forall_mem_nil _
  | cons nonempty behind inductionHypothesis =>
    refine List.forall_mem_cons.mpr ⟨?_, inductionHypothesis⟩
    simpa using nonempty

/-- The end of input stands behind the text, and each token behind those in front of it. -/
theorem Covers.position_eq
    (covers : Covers position text tokens)
    (split : tokens ++ [endOfInput (position + byteLength text)] = before ++ token :: after) :
    token.position = position + (before.map (·.text.utf8ByteSize)).sum := by
  induction covers generalizing before with
  | nil =>
    cases before with
    | nil =>
      rw [← (List.cons.inj split).1]
      rfl
    | cons first before => simp at split
  | @cons position piece text kind tokens nonempty behind inductionHypothesis =>
    rw [byteLength_append, ← Nat.add_assoc] at split
    cases before with
    | nil =>
      rw [← (List.cons.inj split).1]
      rfl
    | cons first before =>
      rw [inductionHypothesis (List.cons.inj split).2, ← (List.cons.inj split).1, List.map_cons,
        List.sum_cons, ← byteLength_toList, String.toList_ofList, Nat.add_assoc]

end Token

/-! ### Whole texts -/

namespace Lexer

variable {lexer : Lexer} {outcome other : Except Error (List Token)}

/-- A reader hands out one row of tokens, or one failure. -/
theorem Drains.unique
    (drains : lexer.Drains outcome)
    (again : lexer.Drains other) :
    outcome = other := by
  induction drains generalizing other with
  | last step ends =>
    cases again with
    | last step' _ =>
      cases step.symm.trans step'
      rfl
    | failure step' => cases step.symm.trans step'
    | more step' inside _ =>
      cases step.symm.trans step'
      exact absurd ends inside
  | failure step =>
    cases again with
    | last step' _ => cases step.symm.trans step'
    | failure step' =>
      cases step.symm.trans step'
      rfl
    | more step' _ _ => cases step.symm.trans step'
  | more step inside _ inductionHypothesis =>
    cases again with
    | last step' ends =>
      cases step.symm.trans step'
      exact absurd ends inside
    | failure step' => cases step.symm.trans step'
    | more step' _ behind =>
      cases step.symm.trans step'
      rw [inductionHypothesis behind]

/-- Asking a reader for tokens up to the end of input is reading the text. -/
theorem start_drains_iff {source : String} :
    (start keepBlanks source).Drains outcome ↔ tokenize keepBlanks source = outcome := by
  constructor
  · exact (start_drains keepBlanks source).unique
  · rintro rfl
    exact start_drains keepBlanks source

end Lexer

/-- The tokens of a source, blanks among them, are the source. -/
structure Lossless (source : String) (tokens : List Token) : Prop where
  /-- Their texts in order are the source. -/
  join : String.join (tokens.map (·.text)) = source
  /-- The last one is the end of input, at the end of the source; all others have a text. -/
  ends : ∃ pieces, tokens = pieces ++ [Token.endOfInput source.utf8ByteSize] ∧
    ∀ token ∈ pieces, token.kind ≠ .endOfInput ∧ token.text ≠ ""
  /-- Each stands behind the bytes of the texts in front of it. -/
  positions : ∀ before token after, tokens = before ++ token :: after →
    token.position = (before.map (·.text.utf8ByteSize)).sum
  /-- A reader that passes over blanks finds all of them but the blanks, at the same places. -/
  withoutBlanks : tokenize false source = .ok (tokens.filter fun token => token.kind != .blank)

/-- A reader that keeps the blanks of a text and does not fail hands out the whole text. -/
theorem lossless_of_drains
    {source : String}
    (drains : (Lexer.start true source).Drains (.ok tokens)) :
    Lossless source tokens := by
  obtain ⟨pieces, scanned, rfl⟩ := tokenize_eq_ok_iff.mp (Lexer.start_drains_iff.mp drains)
  have covers := Token.covers_of_scanFrom scanned
  refine ⟨?_, ⟨pieces, rfl, ?_⟩, ?_, ?_⟩
  · rw [List.map_append, String.join_append, covers.join_eq, String.ofList_toList]
    exact String.append_empty
  · obtain ⟨front, last, same, -, noneBefore⟩ := drains.last_only
    rw [(List.append_inj' same rfl).1]
    intro token member
    refine ⟨noneBefore token member, covers.text_ne_empty token ?_⟩
    rwa [(List.append_inj' same rfl).1]
  · intro before token after split
    rw [← byteLength_toList, ← Nat.zero_add (byteLength source.toList)] at split
    rw [covers.position_eq split, Nat.zero_add]
  · apply tokenize_eq_ok_iff.mpr
    refine ⟨pieces.filter fun token => token.kind != .blank, ?_, List.filter_append ..⟩
    rw [Token.scanFrom_without_blanks, scanned]
    rfl

/-- Longest operators, a run of digits and points, a doubled quote and a character of two bytes. -/
theorem lossless_of_drains_cafe :
    (Lexer.start true "a \t<='caf\u00e9''s'\n1.2.!==b").Drains (.ok
      [⟨.word, "a", 0⟩, ⟨.blank, " \t", 1⟩, ⟨.lessOrEqual, "<=", 3⟩,
        ⟨.string, "'caf\u00e9''s'", 5⟩, ⟨.blank, "\n", 15⟩, ⟨.number, "1.2.", 16⟩,
        ⟨.notEqual, "!=", 20⟩, ⟨.equal, "=", 22⟩, ⟨.word, "b", 23⟩, ⟨.endOfInput, "", 24⟩]) ∧
    Lossless "a \t<='caf\u00e9''s'\n1.2.!==b"
      [⟨.word, "a", 0⟩, ⟨.blank, " \t", 1⟩, ⟨.lessOrEqual, "<=", 3⟩,
        ⟨.string, "'caf\u00e9''s'", 5⟩, ⟨.blank, "\n", 15⟩, ⟨.number, "1.2.", 16⟩,
        ⟨.notEqual, "!=", 20⟩, ⟨.equal, "=", 22⟩, ⟨.word, "b", 23⟩, ⟨.endOfInput, "", 24⟩] := by
  have drains := Lexer.start_drains_iff.mpr
    (show tokenize true "a \t<='caf\u00e9''s'\n1.2.!==b" = _ by cbv)
  exact ⟨drains, lossless_of_drains drains⟩

end ObjectQuery
