import ObjectQuery.Proofs.Expr.Literal
import ObjectQuery.Proofs.Token.Lossless

/-!
Contract: a written quotation is one token in front of any text that does not go on with a quote.

Owns:
- `Token.moved`, and the tokens of a text that stands further behind;
- `scanFrom_quote_append` and `tokenize_quote_append`.

Does not own: how quotations are written and read back.
-/

namespace ObjectQuery

variable {keepBlanks : Bool} {position : Nat} {text rest : List Char} {tokens : List Token}

namespace Token

/-- The token, so many bytes further behind. -/
def moved (bytes : Nat) (token : Token) : Token :=
  { token with position := bytes + token.position }

/-- A text that stands further behind has the same tokens, moved. -/
theorem scanFrom_moved
    (bytes : Nat)
    (scanned : scanFrom keepBlanks position text = .ok tokens) :
    scanFrom keepBlanks (bytes + position) text = .ok (tokens.map (·.moved bytes)) := by
  induction text using pieces_induction generalizing position tokens with
  | nil =>
    rw [scanFrom] at scanned ⊢
    rw [← Except.ok.inj scanned]
    rfl
  | piece c text inductionHypothesis =>
    obtain ⟨kind, others, first, behind, made⟩ := scanFrom_cons_eq_ok_iff.mp scanned
    apply scanFrom_cons_eq_ok_iff.mpr
    refine ⟨kind, others.map (·.moved bytes), first, ?_, ?_⟩
    · rw [Nat.add_assoc]
      exact inductionHypothesis behind
    · rw [← made]
      split <;> rfl

/-- The first piece is the quotation, as long as no quote follows it. -/
theorem first_quotation
    (content : List Char)
    (outside : rest.head? ≠ some '\'') :
    Lexeme.first '\'' (Text.Quoted.escape '\'' content ++ '\'' :: rest) =
      ⟨some .string, '\'' :: Text.Quoted.escape '\'' content ++ ['\''], rest⟩ := by
  have first : firstPiece '\'' (Text.Quoted.escape '\'' content ++ '\'' :: rest) =
      (some .string, (Text.Quoted.escape '\'' content ++ ['\'']).length) :=
    firstPiece_quote_eq_iff.mpr ⟨rfl, content, rest, rfl, outside, by simp⟩
  have split : Text.Quoted.escape '\'' content ++ '\'' :: rest =
      (Text.Quoted.escape '\'' content ++ ['\'']) ++ rest := by simp
  rw [Lexeme.first, first, split]
  simp only [List.take_left, List.drop_left, List.cons_append]

/-- A quotation is one token, and reading goes on behind it. -/
theorem scanFrom_quote_append
    (content : String)
    (outside : rest.head? ≠ some '\'') :
    scanFrom keepBlanks position ((Text.quote content).toList ++ rest) =
      (scanFrom keepBlanks (position + (Text.quote content).utf8ByteSize) rest).map
        (⟨.string, Text.quote content, position⟩ :: ·) := by
  have written : (Text.quote content).toList ++ rest =
      '\'' :: (Text.Quoted.escape '\'' content.toList ++ '\'' :: rest) := by
    simp [Text.quote, Text.Quoted.quoteWith]
  have first := first_quotation content.toList outside
  have isString :
      (Lexeme.first '\'' (Text.Quoted.escape '\'' content.toList ++ '\'' :: rest)).kind =
        some .string := by rw [first]
  rw [written, scanFrom_first isString, first]
  have size : byteLength ('\'' :: Text.Quoted.escape '\'' content.toList ++ ['\'']) =
      (Text.quote content).utf8ByteSize := by
    rw [← byteLength_toList, Text.quote, Text.Quoted.quoteWith, String.toList_ofList]
  rw [size]
  rfl

end Token

/-- A quotation in front of a text whose tokens can be read is the first token, and the tokens of
the text follow. -/
theorem tokenize_quote_append
    (content : String)
    {behind : String}
    (outside : behind.toList.head? ≠ some '\'')
    (read : tokenize keepBlanks behind = .ok tokens) :
    ∃ first, tokenize keepBlanks (Text.quote content ++ behind) =
        .ok (first :: tokens.map (·.moved (Text.quote content).utf8ByteSize)) ∧
      first.kind = .string ∧ first.text = Text.quote content ∧ first.position = 0 ∧
        first.stringValue? = some content := by
  refine ⟨⟨.string, Text.quote content, 0⟩, ?_, rfl, rfl, rfl, stringValue?_quote content 0⟩
  obtain ⟨pieces, scanned, rfl⟩ := tokenize_eq_ok_iff.mp read
  apply tokenize_eq_ok_iff.mpr
  refine ⟨⟨.string, Text.quote content, 0⟩ ::
    pieces.map (·.moved (Text.quote content).utf8ByteSize), ?_, ?_⟩
  · have moved := Token.scanFrom_moved (Text.quote content).utf8ByteSize scanned
    rw [String.toList_append, Token.scanFrom_quote_append content outside, Nat.zero_add]
    rw [Nat.add_zero] at moved
    rw [moved]
    rfl
  · rw [List.map_append, String.utf8ByteSize_append]
    rfl

/-- Quotes at both ends of a string and inside, in front of a quotation that does not touch it. -/
theorem tokenize_quote_append_quotes :
    " = 'x'".toList.head? ≠ some '\'' ∧
    tokenize false " = 'x'" = .ok [⟨.equal, "=", 1⟩, ⟨.string, "'x'", 3⟩, ⟨.endOfInput, "", 6⟩] ∧
    ∃ first, tokenize false (Text.quote "'it''s \u00e9'" ++ " = 'x'") =
        .ok [first, ⟨.equal, "=", 17⟩, ⟨.string, "'x'", 19⟩, ⟨.endOfInput, "", 22⟩] ∧
      first.kind = .string ∧ first.text = Text.quote "'it''s \u00e9'" ∧ first.position = 0 ∧
        first.stringValue? = some "'it''s \u00e9'" := by
  have outside : " = 'x'".toList.head? ≠ some '\'' := by decide
  have read : tokenize false " = 'x'" =
      .ok [⟨.equal, "=", 1⟩, ⟨.string, "'x'", 3⟩, ⟨.endOfInput, "", 6⟩] := by cbv
  have quoted := tokenize_quote_append "'it''s \u00e9'" outside read
  have size : (Text.quote "'it''s \u00e9'").utf8ByteSize = 16 := by cbv
  rw [size] at quoted
  exact ⟨outside, read, quoted⟩

end ObjectQuery
