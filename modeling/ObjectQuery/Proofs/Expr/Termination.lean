import ObjectQuery.Proofs.Expr.Budget
import ObjectQuery.Proofs.Expr.RawText
import ObjectQuery.Proofs.Token.Draining

/-!
Contract: reading a text ends, with a tree or with an error of the text.

Owns:
- `Settles`, one outcome of a form for all budgets that are large enough;
- the outcome of each form and the rounds of each loop in front of any tokens;
- that a raw text is cut out at characters of the source;
- `ReadingEnds` and `reading_ends`.

Does not own: what is read.
-/

namespace ObjectQuery

namespace Grammar

variable {α : Type} {tokens rest : List Token} {taken rank : Nat}

/-! ### Budgets that are large enough -/

/-- With sixteen steps for each token and the rank of the form, reading ends, and more steps change
nothing. -/
def Settles
    (taken rank : Nat)
    (form : Nat → List Token → Except Stop (α × List Token))
    (tokens : List Token) : Prop :=
  ∀ budget, 16 * tokens.length + rank ≤ budget →
    Ends taken tokens (form budget tokens) ∧
      form budget tokens = form (16 * tokens.length + rank) tokens

theorem settles
    {form : Nat → List Token → Except Stop (α × List Token)}
    (ends : ∀ budget, 16 * tokens.length + rank ≤ budget → Ends taken tokens (form budget tokens))
    (step : ∀ budget, Extends (form budget tokens) (form (budget + 1) tokens)) :
    Settles taken rank form tokens := by
  intro budget enough
  refine ⟨ends budget enough, ?_⟩
  exact Extends.eq_of_le step (ends _ (Nat.le_refl _)).ne_outOfBudget enough

/-- Every form settles in front of these tokens, and takes one of them unless what it reads may be
missing. -/
structure FormsSettle (source : List Char) (tokens : List Token) : Prop where
  disjunction : Settles 1 11 (disjunction source) tokens
  conjunction : Settles 1 10 (conjunction source) tokens
  negation : Settles 1 9 (negation source) tokens
  comparison : Settles 1 8 (comparison source) tokens
  comparisonTail : ∀ left, Settles 0 1 (comparisonTail source · left) tokens
  sum : Settles 1 7 (sum source) tokens
  product : Settles 1 6 (product source) tokens
  unary : Settles 1 5 (unary source) tokens
  primary : Settles 1 4 (primary source) tokens
  wordPrimary : ∀ token rest, tokens = token :: rest →
    Settles 1 3 (fun budget _ => wordPrimary source budget token rest) tokens
  pathTail : ∀ owner name, Settles 0 1 (pathTail source · owner name) tokens
  containsElement : Settles 1 12 (containsElement source) tokens
  nestedQuery : Settles 1 2 (nestedQuery source) tokens
  select : Settles 1 1 (select source) tokens
  selectItem : Settles 1 12 (selectItem source) tokens
  orderItem : Settles 1 12 (orderItem source) tokens

theorem formsSettle (source : List Char) (tokens : List Token) : FormsSettle source tokens where
  disjunction := settles (disjunction_ends · tokens) (disjunction_extends · tokens)
  conjunction := settles (conjunction_ends · tokens) (conjunction_extends · tokens)
  negation := settles (negation_ends · tokens) (negation_extends · tokens)
  comparison := settles (comparison_ends · tokens) (comparison_extends · tokens)
  comparisonTail left :=
    settles (comparisonTail_ends · left tokens) (comparisonTail_extends · left tokens)
  sum := settles (sum_ends · tokens) (sum_extends · tokens)
  product := settles (product_ends · tokens) (product_extends · tokens)
  unary := settles (unary_ends · tokens) (unary_extends · tokens)
  primary := settles (primary_ends · tokens) (primary_extends · tokens)
  wordPrimary token rest split := by
    subst split
    exact settles (wordPrimary_ends · token rest) (wordPrimary_extends · token rest)
  pathTail owner name :=
    settles (pathTail_ends · owner name tokens) (pathTail_extends · owner name tokens)
  containsElement := settles (containsElement_ends · tokens) (containsElement_extends · tokens)
  nestedQuery := settles (nestedQuery_ends · tokens) (nestedQuery_extends · tokens)
  select := settles (select_ends · tokens) (select_extends · tokens)
  selectItem := settles (selectItem_ends · tokens) (selectItem_extends · tokens)
  orderItem := settles (orderItem_ends · tokens) (orderItem_extends · tokens)

/-- As many rounds of a loop as there are tokens, and one more, are enough. -/
def Rounds
    (taken : Nat)
    (loop : Nat → List Token → Except Stop (α × List Token))
    (tokens : List Token) : Prop :=
  ∀ rounds, tokens.length < rounds → Ends taken tokens (loop rounds tokens)

/-- Every loop of the language, over forms with this budget, takes a token in each round. -/
structure LoopsEnd (source : List Char) (budget : Nat) (tokens : List Token) : Prop where
  disjuncts : ∀ left,
    Rounds 0 (chain orOperator? (conjunction source budget) · left) tokens
  conjuncts : ∀ left,
    Rounds 0 (chain andOperator? (negation source budget) · left) tokens
  terms : ∀ left,
    Rounds 0 (chain sumOperator? (product source budget) · left) tokens
  factors : ∀ left,
    Rounds 0 (chain productOperator? (unary source budget) · left) tokens
  candidates : Rounds 1 (commaSeparated (sum source budget)) tokens
  expressions : Rounds 1 (commaSeparated (disjunction source budget)) tokens
  selectItems : Rounds 1 (commaSeparated (selectItem source budget)) tokens
  fromItems : Rounds 1 (commaSeparated fromItem) tokens
  orderItems : Rounds 1 (commaSeparated (orderItem source budget)) tokens

theorem loopsEnd
    (source : List Char)
    {budget : Nat}
    (enough : 16 * tokens.length + 12 ≤ budget) :
    LoopsEnd source budget tokens where
  disjuncts left _ rounds :=
    chain_ends (fun inner few => conjunction_ends budget inner (by omega)) left (Nat.le_refl _)
      rounds
  conjuncts left _ rounds :=
    chain_ends (fun inner few => negation_ends budget inner (by omega)) left (Nat.le_refl _) rounds
  terms left _ rounds :=
    chain_ends (fun inner few => product_ends budget inner (by omega)) left (Nat.le_refl _) rounds
  factors left _ rounds :=
    chain_ends (fun inner few => unary_ends budget inner (by omega)) left (Nat.le_refl _) rounds
  candidates _ rounds :=
    commaSeparated_ends (fun inner few => sum_ends budget inner (by omega)) (Nat.le_refl _) rounds
  expressions _ rounds :=
    commaSeparated_ends (fun inner few => disjunction_ends budget inner (by omega)) (Nat.le_refl _)
      rounds
  selectItems _ rounds :=
    commaSeparated_ends (fun inner few => selectItem_ends budget inner (by omega)) (Nat.le_refl _)
      rounds
  fromItems _ rounds :=
    commaSeparated_ends (fun inner _ => fromItem_ends inner) (Nat.le_refl _) rounds
  orderItems _ rounds :=
    commaSeparated_ends (fun inner few => orderItem_ends budget inner (by omega)) (Nat.le_refl _)
      rounds

/-! ### Raw text -/

theorem isValid_of_split
    {source : String}
    {before after : List Char}
    (split : source.toList = before ++ after) :
    (⟨byteLength before⟩ : String.Pos.Raw).IsValid source := by
  apply String.Pos.Raw.isValid_iff_exists_append.mpr
  refine ⟨String.ofList before, String.ofList after, ?_, ?_⟩
  · rw [← String.ofList_append, ← split, String.ofList_toList]
  · have size := byteLength_toList (String.ofList before)
    rw [String.toList_ofList] at size
    rw [size]
    rfl

/-- The raw text behind an opening parenthesis stands between two characters of the source. -/
def RawTextPlaced (source : String) (tokens : List Token) : Prop :=
  ∀ opening inside close rest, tokens = opening :: inside → opening.kind = .leftParen →
    closing? 1 inside = some (close, rest) →
    opening.position + 1 ≤ close.position ∧
      (⟨opening.position + 1⟩ : String.Pos.Raw).IsValid source ∧
      (⟨close.position⟩ : String.Pos.Raw).IsValid source

theorem rawTextPlaced
    {source : String}
    (located : Located source.toList tokens) :
    RawTextPlaced source tokens := by
  rintro opening inside close rest rfl opens found
  obtain ⟨inner, rfl, closes, -⟩ := closing?_eq_some_iff.mp found
  obtain ⟨before, behind, split, place, spelled, others⟩ := located.head
  rw [opens] at spelled
  have parenthesis : opening.text.toList = ['('] := spelled
  have one : byteLength ['('] = 1 := by decide
  rw [parenthesis] at split others
  rw [one] at others
  obtain ⟨raw, after, rfl, -, ends⟩ := others.cut closes
  refine ⟨by omega, ?_, ?_⟩
  · have atOpening : source.toList = (before ++ ['(']) ++ (raw ++ ')' :: after) := by
      simp [split]
    have valid := isValid_of_split atOpening
    rwa [byteLength_append, one, ← place] at valid
  · have atClosing : source.toList = (before ++ ['('] ++ raw) ++ (')' :: after) := by
      simp [split]
    have valid := isValid_of_split atClosing
    rwa [byteLength_append, byteLength_append, one, ← place, ← ends] at valid

/-! ### Whole texts -/

/-- A whole list of tokens is read, or reading stops in front of one of them or behind the last. -/
def WholeEnds
    (form : Nat → List Token → Except Stop (α × List Token))
    (tokens : List Token) : Prop :=
  (∃ result, whole form tokens = .ok result) ∨
    ∃ expected remaining, whole form tokens = .error (.unexpected expected remaining) ∧
      remaining <:+ tokens

theorem Settles.wholeEnds
    {form : Nat → List Token → Except Stop (α × List Token)}
    (settles : Settles taken rank form tokens)
    (low : rank ≤ 16) :
    WholeEnds form tokens := by
  obtain ⟨ends, -⟩ := settles (budgetFor tokens.length) (by rw [budgetFor]; omega)
  unfold WholeEnds whole
  match form (budgetFor tokens.length) tokens, ends with
  | .ok (result, []), _ => exact .inl ⟨result, rfl⟩
  | .ok (_, token :: rest), ⟨suffix, _⟩ => exact .inr ⟨_, _, rfl, suffix⟩
  | .error (.unexpected expected remaining), suffix => exact .inr ⟨expected, remaining, rfl, suffix⟩

/-- The error comes from the text: a character that starts no token, or a token that does not
fit. -/
def IsReadingError (error : Error) : Prop :=
  error.kind = .lexical ∨ error.kind = .grammatical

theorem isReadingError_toError (sourceBytes : Nat) (stop : Stop) :
    IsReadingError (Stop.toError sourceBytes stop) := by
  match stop with
  | .unexpected _ (_ :: _) => exact .inr rfl
  | .unexpected _ [] => exact .inr rfl
  | .outOfBudget => exact .inr rfl

theorem isReadingError_of_scanFrom
    {position : Nat}
    {text : List Char}
    {error : Error}
    (scanned : Token.scanFrom false position text = .error error) :
    IsReadingError error :=
  .inl (Token.kind_of_scanFrom_eq_error scanned)

theorem isReadingError_of_parseText
    {form : List Char → Nat → List Token → Except Stop (α × List Token)}
    {source : String}
    {error : Error}
    (failed : parseText form source = .error error) :
    IsReadingError error := by
  unfold parseText at failed
  cases scanned : Token.scan source with
  | error error' =>
    rw [scanned] at failed
    obtain rfl := Except.error.inj failed
    exact isReadingError_of_scanFrom scanned
  | ok tokens =>
    rw [scanned, ok_bind] at failed
    cases outcome : whole (form source.toList) tokens with
    | ok result =>
      rw [outcome] at failed
      cases failed
    | error stop =>
      rw [outcome] at failed
      obtain rfl := Except.error.inj failed
      exact isReadingError_toError _ stop

theorem isReadingError_of_parseCondition
    {source : String}
    {error : Error}
    (failed : parseCondition source = .error error) :
    IsReadingError error := by
  unfold parseCondition at failed
  cases scanned : Token.scan source with
  | error error' =>
    rw [scanned] at failed
    obtain rfl := Except.error.inj failed
    exact isReadingError_of_scanFrom scanned
  | ok tokens =>
    rw [scanned, ok_bind] at failed
    cases read : parseExpression source with
    | error error' =>
      rw [read] at failed
      obtain rfl := Except.error.inj failed
      exact isReadingError_of_parseText read
    | ok e =>
      rw [read, ok_bind] at failed
      split at failed
      · cases failed
      · obtain rfl := Except.error.inj failed
        exact .inr rfl

/-- Reading a text comes to an end. -/
structure ReadingEnds (source : String) : Prop where
  /-- The reader of tokens is not asked behind the end of input. -/
  drained : (Lexer.start false source).Drains (tokenize false source)
  /-- The end of input stands behind the tokens of the text. -/
  endOfInput : tokenize false source =
    (Token.scan source).map (· ++ [Token.endOfInput source.utf8ByteSize])
  /-- It stands nowhere else. -/
  endOfInputOnce : ∀ tokens, Token.scan source = .ok tokens →
    ∀ token ∈ tokens, token.kind ≠ .endOfInput
  /-- In front of each token every form takes a token or stops. -/
  forms : ∀ tokens rest, Token.scan source = .ok tokens → rest <:+ tokens →
    FormsSettle source.toList rest
  /-- So does each round of a loop. -/
  loops : ∀ tokens rest budget, Token.scan source = .ok tokens → rest <:+ tokens →
    16 * rest.length + 12 ≤ budget → LoopsEnd source.toList budget rest
  /-- A raw text is cut out of the source between two characters. -/
  rawTexts : ∀ tokens rest, Token.scan source = .ok tokens → rest <:+ tokens →
    RawTextPlaced source rest
  /-- An expression or a query is read from all tokens, or a token does not fit. -/
  whole : ∀ tokens, Token.scan source = .ok tokens →
    WholeEnds (disjunction source.toList) tokens ∧ WholeEnds (select source.toList) tokens
  /-- Without a tree there is an error of the text. -/
  errors : ∀ error, parseExpression source = .error error ∨ parseCondition source = .error error ∨
    parseQuery source = .error error → IsReadingError error

theorem tokenize_of_scan
    {source : String}
    (scanned : Token.scan source = .ok tokens) :
    tokenize false source = .ok (tokens ++ [Token.endOfInput source.utf8ByteSize]) :=
  tokenize_eq_ok_iff.mpr ⟨tokens, scanned, rfl⟩

theorem ne_endOfInput_of_scan
    {source : String}
    (scanned : Token.scan source = .ok tokens) :
    ∀ token ∈ tokens, token.kind ≠ .endOfInput := by
  have drained := Lexer.start_drains false source
  rw [tokenize_of_scan scanned] at drained
  obtain ⟨front, last, same, -, noneBefore⟩ := drained.last_only
  obtain ⟨rfl, -⟩ := List.append_inj' same rfl
  exact noneBefore

/-- Reading ends for every text: with a tree, or with an error of the text. -/
theorem reading_ends (source : String) : ReadingEnds source where
  drained := Lexer.start_drains false source
  endOfInput := by
    unfold tokenize Token.scan
    cases Token.scanFrom false 0 source.toList <;> rfl
  endOfInputOnce _ scanned := ne_endOfInput_of_scan scanned
  forms _ rest _ _ := formsSettle source.toList rest
  loops _ _ _ _ _ enough := loopsEnd source.toList enough
  rawTexts _ _ scanned suffix := rawTextPlaced ((located_of_scan scanned).of_suffix suffix)
  whole tokens _ :=
    ⟨(formsSettle source.toList tokens).disjunction.wholeEnds (by decide),
      (formsSettle source.toList tokens).select.wholeEnds (by decide)⟩
  errors error failed := by
    rcases failed with expression | condition | query
    · exact isReadingError_of_parseText expression
    · exact isReadingError_of_parseCondition condition
    · exact isReadingError_of_parseText query

end Grammar

end ObjectQuery
