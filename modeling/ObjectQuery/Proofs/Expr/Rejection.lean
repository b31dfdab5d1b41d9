import ObjectQuery.Proofs.Expr.Termination

/-!
Contract: a text is rejected at one of its tokens.

Owns:
- `Stands`, a token at its place in the source;
- `TellsOf`, what an error of the grammar says, and where;
- `RejectsAtTokens`, every way in which a text is rejected, and `rejections_at_tokens`.

Does not own: which texts are rejected.
-/

namespace ObjectQuery

namespace Grammar

variable {α : Type} {source : String} {tokens : List Token} {token : Token} {error : Error}

/-- The token stands in the source at its position, which is a place between two characters; the end
of input stands at the end. -/
structure Stands (source : String) (token : Token) : Prop where
  placed : Placed source.toList token.position token.text.toList
  boundary : (⟨token.position⟩ : String.Pos.Raw).IsValid source
  inside : token.position ≤ source.utf8ByteSize
  atEnd : token.kind = .endOfInput → token.position = source.utf8ByteSize

/-- The error is one of the grammar: it points at a byte and says what was expected there and what
was found. -/
structure TellsOf (error : Error) (expected found : String) (position : Nat) : Prop where
  kind : error.kind = .grammatical
  place : error.position? = some position
  message : error.message =
    s!"Syntax error at position {position}: expected {expected}, found {found}"

/-- The error describes one of the tokens and points at its first character. -/
def TellsOfOne (source : String) (tokens : List Token) (error : Error) : Prop :=
  ∃ token ∈ tokens, Stands source token ∧
    ∃ expected : Expectation, TellsOf error expected.describe token.describe token.position

/-- Every way in which a text is rejected, apart from an exception. -/
structure RejectsAtTokens
    (source : String)
    (outcome : Except Error α)
    (exception : List Token → Error → Prop) : Prop where
  /-- A character that starts no token is the error, wherever it stands, and there is no other error
  of that kind. -/
  lexical : ∀ error,
    tokenize false source = .error error ↔ outcome = .error error ∧ error.kind = .lexical
  /-- Any other error is about one of the tokens. -/
  grammatical : ∀ tokens error, tokenize false source = .ok tokens → outcome = .error error →
    TellsOfOne source tokens error ∨ exception tokens error

/-! ### Tokens at their places -/

theorem Stands.of_placed
    (placed : Placed source.toList token.position token.text.toList)
    (atEnd : token.kind = .endOfInput → token.position = source.utf8ByteSize) :
    Stands source token := by
  obtain ⟨before, after, split, place⟩ := id placed
  refine ⟨placed, ?_, ?_, atEnd⟩
  · rw [place]
    exact isValid_of_split split
  · rw [place, ← byteLength_toList, split, byteLength_append]
    omega

theorem stands_of_tokenize
    (read : tokenize false source = .ok tokens)
    (member : token ∈ tokens) :
    Stands source token := by
  obtain ⟨pieces, scanned, rfl⟩ := tokenize_eq_ok_iff.mp read
  rcases List.mem_append.mp member with piece | last
  · obtain ⟨front, behind, rfl⟩ := List.append_of_mem piece
    have located := (located_of_scan scanned).of_suffix (List.suffix_append front (token :: behind))
    obtain ⟨before, after, split, place, -, -⟩ := located.head
    exact .of_placed ⟨before, after, split, place⟩
      fun ends => absurd ends (ne_endOfInput_of_scan scanned token piece)
  · obtain rfl := List.mem_singleton.mp last
    have whole : source.utf8ByteSize = byteLength source.toList := (byteLength_toList source).symm
    exact .of_placed ⟨source.toList, [], by simp [Token.endOfInput], whole⟩ fun _ => rfl

/-! ### Errors at tokens -/

theorem TellsOfOne.kind_eq (tells : TellsOfOne source tokens error) :
    error.kind = .grammatical := by
  obtain ⟨_, _, _, _, tells⟩ := tells
  exact tells.kind

theorem tellsOf_unexpectedToken (expected : Expectation) (token : Token) :
    TellsOf (.unexpectedToken expected token) expected.describe token.describe token.position where
  kind := rfl
  place := rfl
  message := rfl

theorem tellsOf_scalarCondition (position : Nat) :
    TellsOf (.scalarCondition position) "boolean expression" "scalar expression" position where
  kind := rfl
  place := rfl
  message := by
    have parts : ": expected boolean expression, found scalar expression" =
        ": expected " ++ ("boolean expression" ++ (", found " ++ "scalar expression")) := by decide
    show "Syntax error at position " ++
      (toString position ++ ": expected boolean expression, found scalar expression") = _
    rw [parts]
    simp only [String.append_assoc]
    rfl

/-- The point at which a reading of these tokens stops is one of them, or the end of input. -/
theorem tellsOfOne_toError
    (expected : Expectation)
    {remaining : List Token}
    (read : tokenize false source = .ok (tokens ++ [Token.endOfInput source.utf8ByteSize]))
    (suffix : remaining <:+ tokens) :
    TellsOfOne source (tokens ++ [Token.endOfInput source.utf8ByteSize])
      (Stop.toError source.utf8ByteSize (.unexpected expected remaining)) := by
  cases remaining with
  | nil =>
    have member : Token.endOfInput source.utf8ByteSize ∈
        tokens ++ [Token.endOfInput source.utf8ByteSize] := by simp
    exact ⟨_, member, stands_of_tokenize read member, expected, tellsOf_unexpectedToken ..⟩
  | cons token rest =>
    have member : token ∈ tokens ++ [Token.endOfInput source.utf8ByteSize] :=
      List.mem_append_left _ (suffix.subset List.mem_cons_self)
    exact ⟨_, member, stands_of_tokenize read member, expected, tellsOf_unexpectedToken ..⟩

theorem tokenize_of_scan_error (scanned : Token.scan source = .error error) :
    tokenize false source = .error error := by
  unfold tokenize
  rw [show Token.scanFrom false 0 source.toList = .error error from scanned]
  rfl

/-- A text that cannot be cut into tokens is rejected with the character that starts none. -/
theorem RejectsAtTokens.of_scan_error
    {outcome : Except Error α}
    {exception : List Token → Error → Prop}
    (scanned : Token.scan source = .error error)
    (rejected : outcome = .error error) :
    RejectsAtTokens source outcome exception where
  lexical error' := by
    rw [tokenize_of_scan_error scanned, rejected]
    constructor
    · intro same
      rw [← Except.error.inj same]
      exact ⟨rfl, Token.kind_of_scanFrom_eq_error scanned⟩
    · intro same
      rw [Except.error.inj same.1]
  grammatical tokens error' read _ := by
    rw [tokenize_of_scan_error scanned] at read
    cases read

/-- A text that can be cut into tokens is rejected at one of them. -/
theorem RejectsAtTokens.of_error
    {exception : List Token → Error → Prop}
    (scanned : Token.scan source = .ok tokens)
    (kind : error.kind = .grammatical)
    (tells : TellsOfOne source (tokens ++ [Token.endOfInput source.utf8ByteSize]) error ∨
      exception (tokens ++ [Token.endOfInput source.utf8ByteSize]) error) :
    RejectsAtTokens source (.error error : Except Error α) exception where
  lexical error' := by
    rw [tokenize_of_scan scanned]
    constructor
    · exact nofun
    · intro rejected
      rw [Except.error.inj rejected.1, rejected.2] at kind
      cases kind
  grammatical tokens' error' read rejected := by
    rw [tokenize_of_scan scanned] at read
    rw [← Except.ok.inj read, ← Except.error.inj rejected]
    exact tells

theorem RejectsAtTokens.of_ok
    {result : α}
    {exception : List Token → Error → Prop}
    (scanned : Token.scan source = .ok tokens) :
    RejectsAtTokens source (.ok result) exception where
  lexical error := by
    rw [tokenize_of_scan scanned]
    constructor
    · exact nofun
    · exact fun rejected => nomatch rejected.1
  grammatical _ _ _ := nofun

/-! ### Forms and conditions -/

/-- A form that ends in front of any tokens rejects texts at tokens. -/
theorem parseText_rejectsAtTokens
    {form : List Char → Nat → List Token → Except Stop (α × List Token)}
    (ends : ∀ tokens, WholeEnds (form source.toList) tokens) :
    RejectsAtTokens source (parseText form source) (fun _ _ => False) := by
  cases scanned : Token.scan source with
  | error error =>
    apply RejectsAtTokens.of_scan_error scanned
    rw [parseText, scanned]
    rfl
  | ok tokens =>
    have outcome : parseText form source =
        (whole (form source.toList) tokens).mapError (Stop.toError source.utf8ByteSize) := by
      rw [parseText, scanned, ok_bind]
    rw [outcome]
    rcases ends tokens with ⟨result, accepted⟩ | ⟨expected, remaining, stopped, suffix⟩
    · rw [accepted]
      exact .of_ok scanned
    · have tells := tellsOfOne_toError expected (tokenize_of_scan scanned) suffix
      rw [stopped]
      exact .of_error scanned tells.kind_eq (.inl tells)

/-- An expression that is no condition is rejected as such at the first token. -/
def ScalarRejected (source : String) (tokens : List Token) (error : Error) : Prop :=
  ∃ first others e, tokens = first :: others ∧ Stands source first ∧
    parseExpression source = .ok e ∧ e.isBoolean = false ∧ e.isHostTyped = false ∧
      TellsOf error "boolean expression" "scalar expression" first.position

theorem parseCondition_rejectsAtTokens
    (ofExpression : RejectsAtTokens source (parseExpression source) fun _ _ => False) :
    RejectsAtTokens source (parseCondition source) (ScalarRejected source) := by
  cases scanned : Token.scan source with
  | error error =>
    apply RejectsAtTokens.of_scan_error scanned
    rw [parseCondition, scanned]
    rfl
  | ok tokens =>
    cases read : parseExpression source with
    | error error =>
      have tells : TellsOfOne source _ error :=
        (ofExpression.grammatical _ error (tokenize_of_scan scanned) read).resolve_right id
      rw [parseCondition, scanned, ok_bind, read, error_bind]
      exact .of_error scanned tells.kind_eq (.inl tells)
    | ok e =>
      rw [parseCondition, scanned, ok_bind, read, ok_bind]
      by_cases admitted : (e.isBoolean || e.isHostTyped) = true
      · rw [if_pos admitted]
        exact .of_ok scanned
      · rw [if_neg admitted]
        rw [Bool.or_eq_true, not_or, Bool.not_eq_true, Bool.not_eq_true] at admitted
        obtain ⟨first, others, split, place⟩ :
            ∃ first others, tokens ++ [Token.endOfInput source.utf8ByteSize] = first :: others ∧
              (tokens.head?.map (·.position)).getD source.utf8ByteSize = first.position := by
          cases tokens with
          | nil => exact ⟨_, _, rfl, rfl⟩
          | cons first others => exact ⟨_, _, rfl, rfl⟩
        have stands : Stands source first := by
          apply stands_of_tokenize (tokenize_of_scan scanned)
          rw [split]
          exact List.mem_cons_self
        rw [place]
        exact .of_error scanned rfl (.inr ⟨first, others, e, split, stands, read, admitted.1,
          admitted.2, tellsOf_scalarCondition first.position⟩)

/-- Texts are rejected at tokens: expressions, conditions and queries. -/
theorem rejections_at_tokens (source : String) :
    RejectsAtTokens source (parseExpression source) (fun _ _ => False) ∧
      RejectsAtTokens source (parseCondition source) (ScalarRejected source) ∧
      RejectsAtTokens source (parseQuery source) (fun _ _ => False) := by
  have expression : RejectsAtTokens source (parseExpression source) fun _ _ => False :=
    parseText_rejectsAtTokens fun tokens =>
      (formsSettle source.toList tokens).disjunction.wholeEnds (by decide)
  have query : RejectsAtTokens source (parseQuery source) fun _ _ => False :=
    parseText_rejectsAtTokens fun tokens =>
      (formsSettle source.toList tokens).select.wholeEnds (by decide)
  exact ⟨expression, parseCondition_rejectsAtTokens expression, query⟩

end Grammar

end ObjectQuery
