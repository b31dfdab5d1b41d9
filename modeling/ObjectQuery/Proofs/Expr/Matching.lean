import ObjectQuery.Proofs.Expr.Steps

/-!
Contract: every form closes the parentheses that it opens, and no others.

The parenthesis that closes an enclosing one is the same, whether it is looked for in front of the
tokens that a form takes or behind them. A form that begins with a parenthesis therefore ends with
the one that closes it, whatever it reads between the two.

Owns:
- `Matched`, tokens with as many closing parentheses as opening ones between them;
- `Matches`, by which a reading takes such tokens, and its laws;
- every form of the language matches.

Does not own: what the forms read.
-/

namespace ObjectQuery

namespace Grammar

variable {α β : Type} {tokens rest after : List Token} {token opening close : Token}

/-- The parentheses that are open around two places close at the same tokens. -/
def Matched (tokens rest : List Token) : Prop :=
  ∀ depth, closing? (depth + 1) tokens = closing? (depth + 1) rest

namespace Matched

theorem refl (tokens : List Token) : Matched tokens tokens :=
  fun _ => rfl

theorem trans (first : Matched tokens rest) (second : Matched rest after) :
    Matched tokens after :=
  fun depth => (first depth).trans (second depth)

theorem skip
    (noOpening : token.kind ≠ .leftParen)
    (noClosing : token.kind ≠ .rightParen) :
    Matched (token :: rest) rest := by
  intro depth
  rw [closing?]
  split
  · contradiction
  · contradiction
  · rfl

theorem skip_word (isWord : token.kind = .word) : Matched (token :: rest) rest :=
  skip (by simp [isWord]) (by simp [isWord])

theorem enclosed
    (opens : opening.kind = .leftParen)
    (inner : Matched tokens (close :: rest))
    (closes : close.kind = .rightParen) :
    Matched (opening :: tokens) rest := by
  intro depth
  have onwards : closing? (depth + 1) (opening :: tokens) = closing? (depth + 1 + 1) tokens := by
    simp [closing?, opens]
  rw [onwards, inner (depth + 1)]
  simp [closing?, closes]

/-- What is taken between a parenthesis and the one that closes it is known from the parentheses
alone. -/
theorem closing_unique
    {other : Token}
    {others : List Token}
    (first : Matched tokens (close :: rest))
    (second : Matched tokens (other :: others))
    (closes : close.kind = .rightParen)
    (closesOther : other.kind = .rightParen) :
    close = other ∧ rest = others := by
  have found := (first 0).symm.trans (second 0)
  simpa [closing?, closes, closesOther] using found

end Matched

/-- A reading of the tokens takes as many closing parentheses as opening ones. -/
def Matches (tokens : List Token) : Except Stop (α × List Token) → Prop
  | .ok (_, rest) => Matched tokens rest
  | .error _ => True

namespace Matches

variable {outcome : Except Stop (α × List Token)}

theorem ok (result : α) (tokens : List Token) : Matches tokens (.ok (result, tokens)) :=
  .refl tokens

theorem stop (stop : Stop) : Matches tokens (.error stop : Except Stop (α × List Token)) :=
  trivial

theorem behind
    (matched : Matched tokens rest)
    (matching : Matches rest outcome) :
    Matches tokens outcome := by
  match outcome, matching with
  | .ok (_, _), matched' => exact matched.trans matched'
  | .error _, _ => trivial

theorem bind
    {next : α × List Token → Except Stop (β × List Token)}
    (first : Matches tokens outcome)
    (second : ∀ result rest, Matches rest (next (result, rest))) :
    Matches tokens (outcome >>= next) := by
  match outcome, first with
  | .ok (result, rest), matched => exact (second result rest).behind matched
  | .error _, _ => trivial

/-- A form between two parentheses. -/
theorem enclosed
    (result : α → β)
    (opens : opening.kind = .leftParen)
    (inner : Matches rest outcome) :
    Matches (opening :: rest) (do
      let (value, rest) ← outcome
      let (_, rest) ← expect .rightParen rest
      pure (result value, rest)) := by
  match outcome, inner with
  | .error _, _ => trivial
  | .ok (value, afterValue), matched =>
    rw [ok_bind]
    dsimp only
    cases closed : expect .rightParen afterValue with
    | error _ => trivial
    | ok pair =>
      obtain ⟨close, afterClose⟩ := pair
      obtain ⟨rfl, closes⟩ := expect_eq_ok.mp closed
      exact Matched.enclosed opens matched closes

end Matches

/-! ### Single tokens -/

theorem expect_matches
    {kind : TokenKind}
    (tokens : List Token)
    (noParen : kind ≠ .leftParen ∧ kind ≠ .rightParen) :
    Matches tokens (expect kind tokens) := by
  cases tokens with
  | nil => exact .stop _
  | cons token rest =>
    rw [expect]
    split
    · rename_i isKind
      exact .skip (by rw [isKind]; exact noParen.1) (by rw [isKind]; exact noParen.2)
    · exact .stop _

theorem expectWord_matches (word : String) (tokens : List Token) :
    Matches tokens (expectWord word tokens) := by
  cases tokens with
  | nil => exact .stop _
  | cons token rest =>
    rw [expectWord]
    split
    · rename_i isWord
      exact .skip_word (Token.kind_of_isWord isWord)
    · exact .stop _

theorem identifier_matches (tokens : List Token) : Matches tokens (identifier tokens) :=
  (expect_matches tokens (by decide)).bind fun token rest => .ok token.text rest

theorem skipWord_matched (word : String) (tokens : List Token) :
    Matched tokens (skipWord word tokens).2 := by
  cases skipped : skipWord word tokens with
  | mk found rest =>
    cases found with
    | true =>
      obtain ⟨token, rfl, isWord⟩ := skipWord_eq_true.mp skipped
      exact .skip_word (Token.kind_of_isWord isWord)
    | false =>
      obtain ⟨rfl, -⟩ := skipWord_eq_false.mp skipped
      exact .refl _

theorem direction_matched (tokens : List Token) : Matched tokens (direction tokens).2 := by
  have descends := skipWord_matched "desc" tokens
  unfold direction
  split
  · rename_i rest skipped
    rwa [skipped] at descends
  · rename_i rest skipped
    rw [skipped] at descends
    exact descends.trans (skipWord_matched "asc" rest)

theorem number_matches (token : Token) (rest : List Token) :
    Matches rest (number token rest) := by
  unfold number
  split
  · exact .ok _ rest
  · exact .stop _

theorem string_matches (token : Token) (rest : List Token) :
    Matches rest (string token rest) := by
  unfold string
  split
  · exact .ok _ rest
  · exact .stop _

theorem parameter_matches (tokens : List Token) : Matches tokens (parameter tokens) := by
  refine (expect_matches tokens (by decide)).bind fun token rest => ?_
  dsimp only
  split
  · exact .stop _
  · split
    · refine (expect_matches rest (by decide)).bind fun _ rest => ?_
      refine (identifier_matches rest).bind fun modifier rest => ?_
      exact (expect_matches rest (by decide)).bind fun _ rest => .ok _ rest
    · exact (expect_matches rest (by decide)).bind fun _ rest => .ok _ rest

/-- The search for a parenthesis goes on behind it as it would from one level further out. -/
theorem matched_of_closing?
    {inner : Nat}
    (found : closing? (inner + 1) tokens = some (close, rest))
    (depth : Nat) :
    closing? (depth + 1 + (inner + 1)) tokens = closing? (depth + 1) rest := by
  induction tokens generalizing inner with
  | nil => simp [closing?] at found
  | cons token tokens inductionHypothesis =>
    rw [closing?] at found ⊢
    split at found
    · exact inductionHypothesis found
    · split at found
      · obtain ⟨-, rfl⟩ := Prod.mk.inj (Option.some.inj found)
        rw [if_neg (by omega)]
        congr 1
        omega
      · obtain ⟨inner, rfl⟩ : ∃ outer, inner = outer + 1 := ⟨inner - 1, by omega⟩
        rw [if_neg (by omega)]
        exact inductionHypothesis found
    · exact inductionHypothesis found

theorem rawText_matches
    {source : List Char}
    (opens : opening.kind = .leftParen) :
    Matches (opening :: tokens) (rawText source opening tokens) := by
  unfold rawText
  split
  · rename_i close rest found
    intro depth
    have onwards : closing? (depth + 1 + (0 + 1)) tokens = closing? (depth + 1) rest :=
      matched_of_closing? found depth
    simpa [closing?, opens] using onwards
  · exact .stop _

theorem fromItem_matches (tokens : List Token) : Matches tokens (fromItem tokens) := by
  refine (identifier_matches tokens).bind fun className rest => ?_
  have skips := skipWord_matched "as" rest
  dsimp only
  split
  · rename_i afterAs skipped
    rw [skipped] at skips
    refine Matches.behind skips ?_
    exact (identifier_matches afterAs).bind fun label rest => .ok _ rest
  · rename_i skipped
    rw [skipped] at skips
    exact (Matches.ok _ _).behind skips
  · rename_i next after skipped
    rw [skipped] at skips
    refine Matches.behind skips ?_
    split
    · rename_i isLabel
      exact (Matches.ok _ after).behind (.skip_word isLabel.1)
    · exact .ok _ _

/-! ### Rows and clauses -/

section Rows

variable {item : List Token → Except Stop (α × List Token)} {budget : Nat}

theorem commaSeparated_matches
    (each : ∀ tokens, Matches tokens (item tokens))
    (budget : Nat)
    (tokens : List Token) :
    Matches tokens (commaSeparated item budget tokens) := by
  induction budget generalizing tokens with
  | zero => exact .stop _
  | succ budget inductionHypothesis =>
    rw [commaSeparated]
    refine (each tokens).bind fun first rest => ?_
    cases rest with
    | nil => exact .ok _ _
    | cons token after =>
      dsimp only
      split
      · rename_i isComma
        refine Matches.behind (.skip (by simp [isComma]) (by simp [isComma])) ?_
        exact (inductionHypothesis after).bind fun others rest => .ok _ rest
      · exact .ok _ _

theorem parenthesized_matches
    (each : ∀ tokens, Matches tokens (item tokens))
    (budget : Nat)
    (tokens : List Token) :
    Matches tokens (parenthesized item budget tokens) := by
  unfold parenthesized
  cases opened : expect .leftParen tokens with
  | error _ => exact .stop _
  | ok pair =>
    obtain ⟨opening, inner⟩ := pair
    obtain ⟨rfl, opens⟩ := expect_eq_ok.mp opened
    rw [ok_bind]
    dsimp only
    split
    · exact Matches.enclosed id opens (Matches.ok ([] : List α) inner)
    · exact Matches.enclosed id opens (commaSeparated_matches each budget inner)

theorem optional_matches
    (word : String)
    (content : ∀ tokens, Matches tokens (item tokens))
    (tokens : List Token) :
    Matches tokens (optional word item tokens) := by
  have skips := skipWord_matched word tokens
  unfold optional
  split
  · rename_i rest skipped
    rw [skipped] at skips
    refine Matches.behind skips ?_
    exact (content rest).bind fun found rest => .ok _ rest
  · rename_i rest skipped
    rw [skipped] at skips
    exact (Matches.ok _ rest).behind skips

theorem optionalList_matches
    {items : List Token → Except Stop (List α × List Token)}
    (word : String)
    (content : ∀ tokens, Matches tokens (items tokens))
    (tokens : List Token) :
    Matches tokens (optionalList word items tokens) := by
  have skips := skipWord_matched word tokens
  unfold optionalList
  split
  · rename_i rest skipped
    rw [skipped] at skips
    refine Matches.behind skips ?_
    exact (expectWord_matches "by" rest).bind fun _ rest => content rest
  · rename_i rest skipped
    rw [skipped] at skips
    exact (Matches.ok _ rest).behind skips

end Rows

/-! ### Operators of one level -/

section Operators

variable {operator? : Token → Option (Expr → Expr → Expr)}
variable {operand : List Token → Except Stop (Expr × List Token)}

theorem chain_matches
    (unbracketed : Unbracketed operator?)
    (each : ∀ tokens, Matches tokens (operand tokens))
    (budget : Nat)
    (left : Expr)
    (tokens : List Token) :
    Matches tokens (chain operator? operand budget left tokens) := by
  induction budget generalizing left tokens with
  | zero => exact .stop _
  | succ budget inductionHypothesis =>
    cases tokens with
    | nil => exact .ok _ _
    | cons token rest =>
      rw [chain]
      split
      · exact .ok _ _
      · rename_i join joins
        obtain ⟨noOpening, noClosing⟩ := unbracketed token join joins
        refine Matches.behind (.skip noOpening noClosing) ?_
        exact (each rest).bind fun right rest => inductionHypothesis (join left right) rest

theorem joined_matches
    (unbracketed : Unbracketed operator?)
    (each : ∀ tokens, Matches tokens (operand tokens))
    (budget : Nat)
    (tokens : List Token) :
    Matches tokens (joined operator? operand budget tokens) :=
  (each tokens).bind fun left rest => chain_matches unbracketed each budget left rest

end Operators

/-! ### All forms -/

section Forms

variable {source : List Char}

theorem comparison?_unbracketed
    {op : RelationalOp}
    (compares : comparison? token = some op) :
    token.kind ≠ .leftParen ∧ token.kind ≠ .rightParen := by
  unfold comparison? at compares
  split at compares
  · rename_i isWord
    simp [Token.kind_of_isWord isWord]
  · split at compares <;> simp_all

theorem tail_matched_of_startsWithWord
    {word : String}
    (starts : startsWithWord word tokens = true) :
    Matched tokens tokens.tail := by
  obtain ⟨token, rest, rfl, isWord⟩ := startsWithWord_eq_true.mp starts
  exact .skip_word (Token.kind_of_isWord isWord)

theorem drop_matched_of_startsShortQuery (short : startsShortQuery tokens = true) :
    Matched tokens (tokens.drop 2) := by
  cases tokens with
  | nil => simp [startsShortQuery] at short
  | cons token rest =>
    obtain ⟨isWord, isWhere⟩ := Bool.and_eq_true _ _ |>.mp short
    have onwards := tail_matched_of_startsWithWord isWhere
    rw [← List.drop_one] at onwards
    exact (Matched.skip_word (beq_iff_eq.mp isWord)).trans onwards

mutual

theorem disjunction_matches : ∀ budget tokens, Matches tokens (disjunction source budget tokens)
  | 0, _ => .stop _
  | budget + 1, tokens => by
    rw [disjunction]
    exact joined_matches orOperator?_unbracketed (conjunction_matches budget) budget tokens

theorem conjunction_matches : ∀ budget tokens, Matches tokens (conjunction source budget tokens)
  | 0, _ => .stop _
  | budget + 1, tokens => by
    rw [conjunction]
    exact joined_matches andOperator?_unbracketed (negation_matches budget) budget tokens

theorem negation_matches : ∀ budget tokens, Matches tokens (negation source budget tokens)
  | 0, _ => .stop _
  | budget + 1, [] => by
    rw [negation]
    exact comparison_matches budget []
  | budget + 1, token :: rest => by
    rw [negation]
    split
    · rename_i negates
      have noParen : token.kind ≠ .leftParen ∧ token.kind ≠ .rightParen := by
        rcases Bool.or_eq_true _ _ |>.mp negates with isWord | isBang
        · simp [Token.kind_of_isWord isWord]
        · simp [beq_iff_eq.mp isBang]
      refine Matches.behind (.skip noParen.1 noParen.2) ?_
      exact (negation_matches budget rest).bind fun operand rest => .ok _ rest
    · exact comparison_matches budget (token :: rest)

theorem comparison_matches : ∀ budget tokens, Matches tokens (comparison source budget tokens)
  | 0, _ => .stop _
  | budget + 1, tokens => by
    rw [comparison]
    refine (sum_matches budget tokens).bind fun left rest => ?_
    dsimp only
    split
    · refine (expectWord_matches "is" rest).bind fun _ rest => ?_
      refine Matches.behind (skipWord_matched "not" rest) ?_
      exact (expectWord_matches "null" _).bind fun _ rest => .ok _ rest
    · split
      · rename_i negated
        have isNot := (Bool.and_eq_true _ _ |>.mp negated).1
        refine Matches.behind (tail_matched_of_startsWithWord isNot) ?_
        exact (comparisonTail_matches budget left rest.tail).bind fun positive rest => .ok _ rest
      · exact comparisonTail_matches budget left rest

theorem comparisonTail_matches : ∀ budget left tokens,
    Matches tokens (comparisonTail source budget left tokens)
  | 0, _, _ => .stop _
  | budget + 1, left, [] => by
    rw [comparisonTail]
    exact .ok _ _
  | budget + 1, left, token :: rest => by
    rw [comparisonTail]
    split
    · rename_i isWord
      refine Matches.behind (.skip_word (Token.kind_of_isWord isWord)) ?_
      exact (parenthesized_matches (sum_matches budget) budget rest).bind
        fun candidates rest => .ok _ rest
    · split
      · exact .ok _ _
      · rename_i op compares
        obtain ⟨noOpening, noClosing⟩ := comparison?_unbracketed compares
        refine Matches.behind (.skip noOpening noClosing) ?_
        exact (sum_matches budget rest).bind fun right rest => .ok _ rest

theorem sum_matches : ∀ budget tokens, Matches tokens (sum source budget tokens)
  | 0, _ => .stop _
  | budget + 1, tokens => by
    rw [sum]
    exact joined_matches sumOperator?_unbracketed (product_matches budget) budget tokens

theorem product_matches : ∀ budget tokens, Matches tokens (product source budget tokens)
  | 0, _ => .stop _
  | budget + 1, tokens => by
    rw [product]
    exact joined_matches productOperator?_unbracketed (unary_matches budget) budget tokens

theorem unary_matches : ∀ budget tokens, Matches tokens (unary source budget tokens)
  | 0, _ => .stop _
  | budget + 1, [] => by
    rw [unary]
    exact primary_matches budget []
  | budget + 1, token :: rest => by
    rw [unary]
    split
    · rename_i isMinus
      refine Matches.behind (.skip (by simp [isMinus]) (by simp [isMinus])) ?_
      exact (unary_matches budget rest).bind fun operand rest => .ok _ rest
    · exact primary_matches budget (token :: rest)

theorem primary_matches : ∀ budget tokens, Matches tokens (primary source budget tokens)
  | 0, _ => .stop _
  | budget + 1, [] => by
    rw [primary]
    exact .stop _
  | budget + 1, token :: rest => by
    have skips (kind : TokenKind) (isKind : token.kind = kind)
        (noParen : kind ≠ .leftParen ∧ kind ≠ .rightParen) : Matched (token :: rest) rest :=
      .skip (isKind ▸ noParen.1) (isKind ▸ noParen.2)
    rw [primary]
    split
    · rename_i isNumber
      exact (number_matches token rest).behind (skips _ isNumber (by decide))
    · rename_i isString
      exact (string_matches token rest).behind (skips _ isString (by decide))
    · rename_i isCurly
      exact (parameter_matches rest).behind (skips _ isCurly (by decide))
    · rename_i isParen
      split
      · exact Matches.enclosed Expr.query isParen (select_matches budget rest)
      · exact Matches.enclosed id isParen (disjunction_matches budget rest)
    · rename_i isStar
      exact (Matches.ok _ rest).behind (skips _ isStar (by decide))
    · rename_i isWord
      exact wordPrimary_matches budget isWord rest
    · exact .stop _

theorem wordPrimary_matches : ∀ budget {token : Token} (_ : token.kind = .word) rest,
    Matches (token :: rest) (wordPrimary source budget token rest)
  | 0, _, _, _ => .stop _
  | budget + 1, token, isWord, rest => by
    have word : Matched (token :: rest) rest := .skip_word isWord
    rw [wordPrimary]
    split
    · exact (Matches.ok _ rest).behind word
    split
    · exact (Matches.ok _ rest).behind word
    split
    · exact (Matches.ok _ rest).behind word
    split
    · rename_i opened
      obtain ⟨opening, inner, rfl, opens⟩ :=
        startsWith_eq_true.mp (Bool.and_eq_true _ _ |>.mp opened).2
      exact (Matches.enclosed Expr.nonempty opens (nestedQuery_matches budget inner)).behind word
    split
    · rename_i opened
      obtain ⟨opening, inner, rfl, opens⟩ :=
        startsWith_eq_true.mp (Bool.and_eq_true _ _ |>.mp opened).2
      rw [expect_eq_ok.mpr ⟨rfl, opens⟩, ok_bind]
      exact (rawText_matches opens).behind word
    split
    · exact (Matches.ok _ rest).behind word
    split
    · exact (nestedQuery_matches budget (token :: rest)).bind fun query rest => .ok _ rest
    split
    · refine Matches.behind word ?_
      exact (parenthesized_matches (disjunction_matches budget) budget rest).bind
        fun arguments rest => .ok _ rest
    · exact (pathTail_matches budget [] token.text rest).behind word

theorem pathTail_matches : ∀ budget owner name tokens,
    Matches tokens (pathTail source budget owner name tokens)
  | 0, _, _, _ => .stop _
  | budget + 1, owner, name, tokens => by
    rw [pathTail]
    split
    · rename_i dotted
      obtain ⟨dot, rest, rfl, isDot⟩ := startsWith_eq_true.mp dotted
      refine Matches.behind (.skip (by simp [isDot]) (by simp [isDot])) ?_
      rw [List.tail_cons]
      by_cases starred : startsWith .star rest = true
      · rw [if_pos starred]
        obtain ⟨star, rest, rfl, isStar⟩ := startsWith_eq_true.mp starred
        exact (Matches.ok _ rest).behind (.skip (by simp [isStar]) (by simp [isStar]))
      · rw [if_neg starred]
        refine (expect_matches rest (by decide)).bind fun segment rest => ?_
        dsimp only
        split
        · exact .ok _ rest
        split
        · rename_i opened
          obtain ⟨opening, inner, rfl, opens⟩ :=
            startsWith_eq_true.mp (Bool.and_eq_true _ _ |>.mp opened).2
          exact Matches.enclosed (Expr.contains owner name) opens
            (containsElement_matches budget inner)
        split
        · exact .ok _ rest
        · exact pathTail_matches budget (owner ++ [name]) segment.text rest
    · exact .ok _ tokens

theorem containsElement_matches : ∀ budget tokens,
    Matches tokens (containsElement source budget tokens)
  | 0, _ => .stop _
  | budget + 1, tokens => by
    rw [containsElement]
    split
    · rename_i short
      exact (disjunction_matches budget (tokens.drop 2)).behind
        (drop_matched_of_startsShortQuery short)
    · exact disjunction_matches budget tokens

theorem nestedQuery_matches : ∀ budget tokens, Matches tokens (nestedQuery source budget tokens)
  | 0, _ => .stop _
  | budget + 1, tokens => by
    rw [nestedQuery]
    split
    · exact select_matches budget tokens
    · refine (identifier_matches tokens).bind fun className rest => ?_
      exact (optional_matches "where" (disjunction_matches budget) rest).bind
        fun condition rest => .ok _ rest

theorem select_matches : ∀ budget tokens, Matches tokens (select source budget tokens)
  | 0, _ => .stop _
  | budget + 1, tokens => by
    have expression (tokens : List Token) : Matches tokens (disjunction source budget tokens) :=
      disjunction_matches budget tokens
    have expressions := commaSeparated_matches expression budget
    have items (tokens : List Token) :
        Matches tokens (commaSeparated (selectItem source budget) budget tokens) :=
      commaSeparated_matches (selectItem_matches budget) budget tokens
    have orders (tokens : List Token) :
        Matches tokens (commaSeparated (orderItem source budget) budget tokens) :=
      commaSeparated_matches (orderItem_matches budget) budget tokens
    have sources := commaSeparated_matches fromItem_matches budget
    rw [select]
    refine (expectWord_matches "select" tokens).bind fun _ rest => ?_
    refine Matches.behind (skipWord_matched "distinct" rest) ?_
    refine (items _).bind fun items rest => ?_
    refine (expectWord_matches "from" rest).bind fun _ rest => ?_
    refine (sources rest).bind fun sources rest => ?_
    refine (optional_matches "where" expression rest).bind fun condition rest => ?_
    refine (optionalList_matches "group" expressions rest).bind fun groupBy rest => ?_
    refine (optional_matches "having" expression rest).bind fun having rest => ?_
    exact (optionalList_matches "order" orders rest).bind fun orderBy rest => .ok _ rest

theorem selectItem_matches : ∀ budget tokens, Matches tokens (selectItem source budget tokens)
  | 0, _ => .stop _
  | budget + 1, tokens => by
    rw [selectItem]
    refine (disjunction_matches budget tokens).bind fun expression rest => ?_
    exact (optional_matches "as" identifier_matches rest).bind fun label rest => .ok _ rest

theorem orderItem_matches : ∀ budget tokens, Matches tokens (orderItem source budget tokens)
  | 0, _ => .stop _
  | budget + 1, tokens => by
    rw [orderItem]
    refine (disjunction_matches budget tokens).bind fun expression rest => ?_
    exact (Matches.ok _ _).behind (direction_matched rest)

end

end Forms

end Grammar

end ObjectQuery
