import ObjectQuery.Proofs.Expr.Lowered
import ObjectQuery.Proofs.Expr.Steps
import ObjectQuery.Proofs.Token.Casing

/-!
Contract: the letter case of words changes nothing that is read, apart from the letters of names.

Every form looks at a word of the language in lower case only, so with all words in lower case it
reads the same tree, its names in lower case, and stops at the same token.

Owns:
- `lowerOutcome`, the outcome for tokens in lower case, and its law for bind;
- the law of single tokens, rows, chains and clauses, and of all forms, by induction on the budget.

Does not own: how texts are cut into tokens, and what is said of two texts.
-/

namespace ObjectQuery

namespace Grammar

variable {α β : Type} {lower : α → α} {source : List Char} {tokens rest : List Token}

/-! ### Outcomes -/

/-- The stop in front of the same tokens in lower case. -/
def lowerStop : Stop → Stop
  | .unexpected expected remaining => .unexpected expected (remaining.map Token.lowered)
  | .outOfBudget => .outOfBudget

/-- The outcome in lower case: what was read, and the tokens behind it. -/
def lowerOutcome (lower : α → α) : Except Stop (α × List Token) → Except Stop (α × List Token)
  | .ok (result, rest) => .ok (lower result, rest.map Token.lowered)
  | .error stop => .error (lowerStop stop)

/-- With tokens in lower case the second reading has the outcome of the first one, in lower case. -/
def Lowers
    (lower : α → α)
    (form form' : List Token → Except Stop (α × List Token)) : Prop :=
  ∀ tokens, form' (tokens.map Token.lowered) = lowerOutcome lower (form tokens)

/-- A step, and what follows it on the tokens that it leaves. -/
theorem lowerOutcome_bind
    {first first' : Except Stop (α × List Token)}
    {next next' : α × List Token → Except Stop (β × List Token)}
    {lowerNext : β → β}
    (ofFirst : first' = lowerOutcome lower first)
    (ofNext : ∀ result rest, first = .ok (result, rest) →
      next' (lower result, rest.map Token.lowered) = lowerOutcome lowerNext (next (result, rest))) :
    (first' >>= next') = lowerOutcome lowerNext (first >>= next) := by
  rw [ofFirst]
  cases first with
  | error stop => rfl
  | ok found => exact ofNext found.1 found.2 rfl

/-! ### Single tokens -/

@[simp]
theorem startsWithWord_lowered (word : String) (tokens : List Token) :
    startsWithWord word (tokens.map Token.lowered) = startsWithWord word tokens := by
  cases tokens with
  | nil => rfl
  | cons token rest => exact token.isWord_lowered word

@[simp]
theorem startsWith_lowered (kind : TokenKind) (tokens : List Token) :
    startsWith kind (tokens.map Token.lowered) = startsWith kind tokens := by
  cases tokens with
  | nil => rfl
  | cons token rest => rw [List.map_cons, startsWith, startsWith, token.kind_lowered]

@[simp]
theorem skipWord_lowered (word : String) (tokens : List Token) :
    skipWord word (tokens.map Token.lowered) =
      ((skipWord word tokens).1, (skipWord word tokens).2.map Token.lowered) := by
  cases tokens with
  | nil => rfl
  | cons token rest =>
    rw [List.map_cons, skipWord, skipWord, token.isWord_lowered]
    split <;> rfl

theorem expectWord_lowers (word : String) :
    Lowers Token.lowered (expectWord word) (expectWord word)
  | [] => rfl
  | token :: rest => by
    rw [List.map_cons, expectWord, expectWord, token.isWord_lowered]
    split <;> rfl

theorem expect_lowers (kind : TokenKind) : Lowers Token.lowered (expect kind) (expect kind)
  | [] => rfl
  | token :: rest => by
    rw [List.map_cons, expect, expect, token.kind_lowered]
    split <;> rfl

theorem identifier_lowers : Lowers String.toLower identifier identifier := by
  intro tokens
  apply lowerOutcome_bind (expect_lowers .word tokens)
  intro token rest found
  dsimp only
  rw [token.text_lowered_of_word (expect_eq_ok.mp found).2]
  rfl

/-! ### Rows, chains and clauses -/

section Rows

variable {item item' : List Token → Except Stop (α × List Token)}

theorem commaSeparated_lowers
    (each : Lowers lower item item')
    (budget : Nat) :
    Lowers (List.map lower) (commaSeparated item budget) (commaSeparated item' budget) := by
  induction budget with
  | zero => exact fun _ => rfl
  | succ budget inductionHypothesis =>
    intro tokens
    rw [commaSeparated, commaSeparated]
    apply lowerOutcome_bind (each tokens)
    intro first rest _
    cases rest with
    | nil => rfl
    | cons token after =>
      rw [List.map_cons]
      dsimp only
      rw [token.kind_lowered]
      split
      · exact lowerOutcome_bind (inductionHypothesis after) fun others rest _ => rfl
      · rfl

theorem parenthesized_lowers
    (each : Lowers lower item item')
    (budget : Nat) :
    Lowers (List.map lower) (parenthesized item budget) (parenthesized item' budget) := by
  intro tokens
  apply lowerOutcome_bind (expect_lowers .leftParen tokens)
  intro _ rest _
  dsimp only
  rw [startsWith_lowered]
  split
  · exact lowerOutcome_bind (expect_lowers .rightParen rest) fun _ rest _ => rfl
  · apply lowerOutcome_bind (commaSeparated_lowers each budget rest)
    intro items rest _
    exact lowerOutcome_bind (expect_lowers .rightParen rest) fun _ rest _ => rfl

theorem optional_lowers
    (word : String)
    (content : Lowers lower item item') :
    Lowers (Option.map lower) (optional word item) (optional word item') := by
  intro tokens
  unfold optional
  rw [skipWord_lowered]
  cases skipWord word tokens with
  | mk found rest =>
    cases found with
    | false => rfl
    | true => exact lowerOutcome_bind (content rest) fun _ rest _ => rfl

theorem optionalList_lowers
    {items items' : List Token → Except Stop (List α × List Token)}
    (word : String)
    (content : Lowers (List.map lower) items items') :
    Lowers (List.map lower) (optionalList word items) (optionalList word items') := by
  intro tokens
  unfold optionalList
  rw [skipWord_lowered]
  cases skipWord word tokens with
  | mk found rest =>
    cases found with
    | false => rfl
    | true => exact lowerOutcome_bind (expectWord_lowers "by" rest) fun _ rest _ => content rest

end Rows

section Operators

/-- Operators that are found in lower case too, and join trees in lower case to one. -/
structure SeesNoCase (operator? : Token → Option (Expr → Expr → Expr)) : Prop where
  found : ∀ token, operator? token.lowered = operator? token
  joins : ∀ token join left right, operator? token = some join →
    (join left right).lowered = join left.lowered right.lowered

variable {operator? : Token → Option (Expr → Expr → Expr)}
variable {operand operand' : List Token → Except Stop (Expr × List Token)}

theorem chain_lowers
    (seesNoCase : SeesNoCase operator?)
    (each : Lowers Expr.lowered operand operand')
    (budget : Nat)
    (left : Expr)
    (tokens : List Token) :
    chain operator? operand' budget left.lowered (tokens.map Token.lowered) =
      lowerOutcome Expr.lowered (chain operator? operand budget left tokens) := by
  induction budget generalizing left tokens with
  | zero => rfl
  | succ budget inductionHypothesis =>
    cases tokens with
    | nil => rfl
    | cons token rest =>
      rw [List.map_cons, chain, chain, seesNoCase.found]
      cases operator : operator? token with
      | none => rfl
      | some join =>
        apply lowerOutcome_bind (each rest)
        intro right rest _
        dsimp only
        rw [← seesNoCase.joins token join left right operator]
        exact inductionHypothesis (join left right) rest

theorem joined_lowers
    (seesNoCase : SeesNoCase operator?)
    (each : Lowers Expr.lowered operand operand')
    (budget : Nat) :
    Lowers Expr.lowered (joined operator? operand budget) (joined operator? operand' budget) := by
  intro tokens
  apply lowerOutcome_bind (each tokens)
  intro left rest _
  exact chain_lowers seesNoCase each budget left rest

end Operators

/-! ### Operators -/

theorem orOperator?_seesNoCase : SeesNoCase orOperator? where
  found token := by rw [orOperator?, orOperator?, token.isWord_lowered, token.kind_lowered]
  joins token join left right operator := by
    obtain ⟨rfl, -⟩ := orOperator?_cases operator
    rfl

theorem andOperator?_seesNoCase : SeesNoCase andOperator? where
  found token := by rw [andOperator?, andOperator?, token.isWord_lowered, token.kind_lowered]
  joins token join left right operator := by
    obtain ⟨rfl, -⟩ := andOperator?_cases operator
    rfl

theorem sumOperator?_seesNoCase : SeesNoCase sumOperator? where
  found token := by rw [sumOperator?, sumOperator?, token.kind_lowered]
  joins token join left right operator := by
    obtain ⟨⟨_, rfl⟩, -⟩ := sumOperator?_cases operator
    rfl

theorem productOperator?_seesNoCase : SeesNoCase productOperator? where
  found token := by rw [productOperator?, productOperator?, token.kind_lowered]
  joins token join left right operator := by
    obtain ⟨⟨_, rfl⟩, -⟩ := productOperator?_cases operator
    rfl

theorem comparison?_lowered (token : Token) : comparison? token.lowered = comparison? token := by
  rw [comparison?, comparison?, token.isWord_lowered, token.kind_lowered]

/-! ### Literals, parameters and raw text -/

theorem number_lowers
    {token : Token}
    (isNumber : token.kind = .number)
    (rest : List Token) :
    number token.lowered (rest.map Token.lowered) = lowerOutcome Expr.lowered (number token rest) := by
  have same : token.lowered = token := token.lowered_of_ne_word (by simp [isNumber])
  rw [number, number, same]
  split
  · rfl
  · rw [lowerOutcome, lowerStop, List.map_cons, same]

theorem string_lowers
    {token : Token}
    (isString : token.kind = .string)
    (rest : List Token) :
    string token.lowered (rest.map Token.lowered) = lowerOutcome Expr.lowered (string token rest) := by
  have same : token.lowered = token := token.lowered_of_ne_word (by simp [isString])
  rw [string, string, same]
  split
  · rfl
  · rw [lowerOutcome, lowerStop, List.map_cons, same]

theorem parameter_lowers : Lowers Expr.lowered parameter parameter := by
  intro tokens
  apply lowerOutcome_bind (expect_lowers .number tokens)
  intro token rest found
  have same : token.lowered = token :=
    token.lowered_of_ne_word (by simp [(expect_eq_ok.mp found).2])
  dsimp only
  rw [same, startsWith_lowered]
  split
  · rfl
  · split
    · apply lowerOutcome_bind (expect_lowers .colon rest)
      intro _ rest _
      apply lowerOutcome_bind (identifier_lowers rest)
      intro modifier rest _
      exact lowerOutcome_bind (expect_lowers .rightCurly rest) fun _ rest _ => rfl
    · exact lowerOutcome_bind (expect_lowers .rightCurly rest) fun _ rest _ => rfl

theorem dropBytes_toLower (bytes : Nat) (text : List Char) :
    dropBytes bytes (text.map Char.toLower) = (dropBytes bytes text).map Char.toLower := by
  induction bytes, text using dropBytes.induct with
  | case1 bytes => cases bytes <;> rfl
  | case2 text _ => cases text <;> rfl
  | case3 bytes c rest inductionHypothesis =>
    rw [List.map_cons, dropBytes, dropBytes, utf8Size_toLower, inductionHypothesis]

theorem takeBytes_toLower (bytes : Nat) (text : List Char) :
    takeBytes bytes (text.map Char.toLower) = (takeBytes bytes text).map Char.toLower := by
  induction bytes, text using takeBytes.induct with
  | case1 bytes => cases bytes <;> rfl
  | case2 text _ => cases text <;> rfl
  | case3 bytes c rest inductionHypothesis =>
    rw [List.map_cons, takeBytes, takeBytes, utf8Size_toLower, inductionHypothesis, List.map_cons]

theorem slice_toLower (source : List Char) (start stop : Nat) :
    slice (source.map Char.toLower) start stop = (slice source start stop).map Char.toLower := by
  rw [slice, slice, dropBytes_toLower, takeBytes_toLower]

theorem trimStart_toLower (text : List Char) :
    Text.trimStart (text.map Char.toLower) = (Text.trimStart text).map Char.toLower := by
  have blanks : Text.isBlank ∘ Char.toLower = Text.isBlank :=
    funext fun c => apply_toLower Text.isBlank (by decide) c
  rw [Text.trimStart, Text.trimStart, List.dropWhile_map, blanks]

theorem trimChars_toLower (text : List Char) :
    Text.trimChars (text.map Char.toLower) = (Text.trimChars text).map Char.toLower := by
  simp only [Text.trimChars, trimStart_toLower, ← List.map_reverse]

theorem closing?_lowered (depth : Nat) (tokens : List Token) :
    closing? depth (tokens.map Token.lowered) =
      (closing? depth tokens).map fun (close, rest) =>
        (close.lowered, rest.map Token.lowered) := by
  induction tokens generalizing depth with
  | nil => cases depth <;> rfl
  | cons token rest inductionHypothesis =>
    rw [List.map_cons, closing?, closing?, token.kind_lowered]
    split
    · exact inductionHypothesis (depth + 1)
    · split
      · rfl
      · exact inductionHypothesis (depth - 1)
    · exact inductionHypothesis depth

/-- The text between the same parentheses, in lower case. -/
theorem rawText_lowers
    (source : List Char)
    (opening : Token) :
    Lowers Expr.lowered (rawText source opening)
      (rawText (source.map Char.toLower) opening.lowered) := by
  intro tokens
  unfold rawText
  rw [closing?_lowered]
  cases closing? 1 tokens with
  | none => rfl
  | some found =>
    dsimp only [Option.map_some]
    rw [opening.position_lowered, found.1.position_lowered, slice_toLower, trimChars_toLower,
      ← Text.toLower_ofList]
    rfl

/-! ### From lists and directions -/

theorem fromItem_lowers : Lowers FromItem.lowered fromItem fromItem := by
  intro tokens
  apply lowerOutcome_bind (identifier_lowers tokens)
  intro className rest _
  dsimp only
  rw [skipWord_lowered]
  cases skipWord "as" rest with
  | mk found rest =>
    cases found with
    | true => exact lowerOutcome_bind (identifier_lowers rest) fun label rest _ => rfl
    | false =>
      cases rest with
      | nil => rfl
      | cons token after =>
        by_cases isWord : token.kind = .word
        · rw [List.map_cons]
          dsimp only
          rw [token.kind_lowered, token.lower_lowered isWord]
          split
          · rw [token.text_lowered_of_word isWord]
            rfl
          · rfl
        · rw [List.map_cons]
          dsimp only
          rw [token.kind_lowered, if_neg (by simp [isWord]), if_neg (by simp [isWord])]
          rfl

theorem direction_lowered (tokens : List Token) :
    direction (tokens.map Token.lowered) =
      ((direction tokens).1, (direction tokens).2.map Token.lowered) := by
  unfold direction
  rw [skipWord_lowered]
  cases skipWord "desc" tokens with
  | mk found rest =>
    cases found with
    | true => rfl
    | false =>
      dsimp only
      rw [skipWord_lowered]

theorem startsShortQuery_lowered (tokens : List Token) :
    startsShortQuery (tokens.map Token.lowered) = startsShortQuery tokens := by
  cases tokens with
  | nil => rfl
  | cons token rest =>
    rw [List.map_cons, startsShortQuery, startsShortQuery, token.kind_lowered,
      startsWithWord_lowered]

/-! ### All forms -/

section Forms

variable {source : List Char}

mutual

theorem disjunction_lowers : ∀ budget, Lowers Expr.lowered (disjunction source budget)
    (disjunction (source.map Char.toLower) budget)
  | 0, tokens => by
    rw [disjunction, disjunction]
    rfl
  | budget + 1, tokens => by
    rw [disjunction, disjunction]
    exact joined_lowers orOperator?_seesNoCase (conjunction_lowers budget) budget tokens

theorem conjunction_lowers : ∀ budget, Lowers Expr.lowered (conjunction source budget)
    (conjunction (source.map Char.toLower) budget)
  | 0, tokens => by
    rw [conjunction, conjunction]
    rfl
  | budget + 1, tokens => by
    rw [conjunction, conjunction]
    exact joined_lowers andOperator?_seesNoCase (negation_lowers budget) budget tokens

theorem negation_lowers : ∀ budget, Lowers Expr.lowered (negation source budget)
    (negation (source.map Char.toLower) budget)
  | 0, tokens => by
    rw [negation, negation]
    rfl
  | budget + 1, [] => by
    rw [List.map_nil, negation, negation]
    exact comparison_lowers budget []
  | budget + 1, token :: rest => by
    rw [List.map_cons, negation, negation, token.isWord_lowered, token.kind_lowered]
    split
    · exact lowerOutcome_bind (negation_lowers budget rest) fun operand rest _ => rfl
    · exact comparison_lowers budget (token :: rest)

theorem comparison_lowers : ∀ budget, Lowers Expr.lowered (comparison source budget)
    (comparison (source.map Char.toLower) budget)
  | 0, tokens => by
    rw [comparison, comparison]
    rfl
  | budget + 1, tokens => by
    rw [comparison, comparison]
    apply lowerOutcome_bind (sum_lowers budget tokens)
    intro left rest _
    dsimp only
    rw [← List.map_tail]
    simp only [startsWithWord_lowered]
    split
    · apply lowerOutcome_bind (expectWord_lowers "is" rest)
      intro _ rest _
      dsimp only
      rw [skipWord_lowered]
      exact lowerOutcome_bind (expectWord_lowers "null" _) fun _ rest _ => rfl
    · split
      · exact lowerOutcome_bind (comparisonTail_lowers budget left rest.tail)
          fun positive rest _ => rfl
      · exact comparisonTail_lowers budget left rest

theorem comparisonTail_lowers : ∀ budget left, Lowers Expr.lowered
    (comparisonTail source budget left)
    (comparisonTail (source.map Char.toLower) budget left.lowered)
  | 0, left, tokens => by
    rw [comparisonTail, comparisonTail]
    rfl
  | budget + 1, left, [] => by
    rw [List.map_nil, comparisonTail, comparisonTail]
    rfl
  | budget + 1, left, token :: rest => by
    rw [List.map_cons, comparisonTail, comparisonTail, token.isWord_lowered, comparison?_lowered]
    split
    · apply lowerOutcome_bind (parenthesized_lowers (sum_lowers budget) budget rest)
      intro candidates rest _
      dsimp only
      rw [← Expr.loweredEach_eq_map]
      rfl
    · split
      · rfl
      · exact lowerOutcome_bind (sum_lowers budget rest) fun right rest _ => rfl

theorem sum_lowers : ∀ budget, Lowers Expr.lowered (sum source budget)
    (sum (source.map Char.toLower) budget)
  | 0, tokens => by
    rw [sum, sum]
    rfl
  | budget + 1, tokens => by
    rw [sum, sum]
    exact joined_lowers sumOperator?_seesNoCase (product_lowers budget) budget tokens

theorem product_lowers : ∀ budget, Lowers Expr.lowered (product source budget)
    (product (source.map Char.toLower) budget)
  | 0, tokens => by
    rw [product, product]
    rfl
  | budget + 1, tokens => by
    rw [product, product]
    exact joined_lowers productOperator?_seesNoCase (unary_lowers budget) budget tokens

theorem unary_lowers : ∀ budget, Lowers Expr.lowered (unary source budget)
    (unary (source.map Char.toLower) budget)
  | 0, tokens => by
    rw [unary, unary]
    rfl
  | budget + 1, [] => by
    rw [List.map_nil, unary, unary]
    exact primary_lowers budget []
  | budget + 1, token :: rest => by
    rw [List.map_cons, unary, unary, token.kind_lowered]
    split
    · exact lowerOutcome_bind (unary_lowers budget rest) fun operand rest _ => rfl
    · exact primary_lowers budget (token :: rest)

theorem primary_lowers : ∀ budget, Lowers Expr.lowered (primary source budget)
    (primary (source.map Char.toLower) budget)
  | 0, tokens => by
    rw [primary, primary]
    rfl
  | budget + 1, [] => by
    rw [List.map_nil, primary, primary]
    rfl
  | budget + 1, token :: rest => by
    rw [List.map_cons, primary, primary, token.kind_lowered]
    split
    · exact number_lowers ‹_› rest
    · exact string_lowers ‹_› rest
    · exact parameter_lowers rest
    · rw [startsWithWord_lowered]
      split
      · apply lowerOutcome_bind (select_lowers budget rest)
        intro query rest _
        exact lowerOutcome_bind (expect_lowers .rightParen rest) fun _ rest _ => rfl
      · apply lowerOutcome_bind (disjunction_lowers budget rest)
        intro inner rest _
        exact lowerOutcome_bind (expect_lowers .rightParen rest) fun _ rest _ => rfl
    · rfl
    · exact wordPrimary_lowers budget ‹_› rest
    · rfl

theorem wordPrimary_lowers : ∀ budget {token : Token}, token.kind = .word →
    Lowers Expr.lowered (wordPrimary source budget token)
      (wordPrimary (source.map Char.toLower) budget token.lowered)
  | 0, token, _, rest => by
    rw [wordPrimary, wordPrimary]
    rfl
  | budget + 1, token, isWord, rest => by
    rw [wordPrimary, wordPrimary]
    rw [← List.map_tail, ← List.map_cons, startsShortQuery_lowered, token.text_lowered_of_word isWord]
    simp only [token.isWord_lowered, startsWith_lowered]
    split
    · rfl
    split
    · rfl
    split
    · rfl
    split
    · apply lowerOutcome_bind (nestedQuery_lowers budget rest.tail)
      intro query rest _
      exact lowerOutcome_bind (expect_lowers .rightParen rest) fun _ rest _ => rfl
    split
    · apply lowerOutcome_bind (expect_lowers .leftParen rest)
      intro opening rest _
      exact rawText_lowers source opening rest
    split
    · rfl
    split
    · exact lowerOutcome_bind (nestedQuery_lowers budget (token :: rest)) fun query rest _ => rfl
    split
    · apply lowerOutcome_bind (parenthesized_lowers (disjunction_lowers budget) budget rest)
      intro arguments rest _
      dsimp only
      rw [← Expr.loweredEach_eq_map]
      rfl
    · exact pathTail_lowers budget [] token.text rest

theorem pathTail_lowers : ∀ budget owner name, Lowers Expr.lowered
    (pathTail source budget owner name)
    (pathTail (source.map Char.toLower) budget (owner.map String.toLower) name.toLower)
  | 0, owner, name, tokens => by
    rw [pathTail, pathTail]
    rfl
  | budget + 1, owner, name, tokens => by
    have longer :
        owner.map String.toLower ++ [name.toLower] = (owner ++ [name]).map String.toLower := by
      simp
    rw [pathTail, pathTail]
    dsimp only
    rw [← List.map_tail, longer]
    simp only [startsWith_lowered]
    split
    · split
      · rw [← List.map_tail]
        rfl
      · apply lowerOutcome_bind (expect_lowers .word tokens.tail)
        intro segment rest found
        dsimp only
        rw [← List.map_tail, segment.text_lowered_of_word (expect_eq_ok.mp found).2]
        simp only [segment.isWord_lowered, startsWith_lowered]
        split
        · rfl
        split
        · apply lowerOutcome_bind (containsElement_lowers budget rest.tail)
          intro element rest _
          exact lowerOutcome_bind (expect_lowers .rightParen rest) fun _ rest _ => rfl
        split
        · rfl
        · exact pathTail_lowers budget (owner ++ [name]) segment.text rest
    · rfl

theorem containsElement_lowers : ∀ budget, Lowers Expr.lowered (containsElement source budget)
    (containsElement (source.map Char.toLower) budget)
  | 0, tokens => by
    rw [containsElement, containsElement]
    rfl
  | budget + 1, tokens => by
    rw [containsElement, containsElement, startsShortQuery_lowered, ← List.map_drop]
    split
    · exact disjunction_lowers budget (tokens.drop 2)
    · exact disjunction_lowers budget tokens

theorem nestedQuery_lowers : ∀ budget, Lowers Query.lowered (nestedQuery source budget)
    (nestedQuery (source.map Char.toLower) budget)
  | 0, tokens => by
    rw [nestedQuery, nestedQuery]
    rfl
  | budget + 1, tokens => by
    rw [nestedQuery, nestedQuery, startsWithWord_lowered]
    split
    · exact select_lowers budget tokens
    · apply lowerOutcome_bind (identifier_lowers tokens)
      intro className rest _
      apply lowerOutcome_bind (optional_lowers "where" (disjunction_lowers budget) rest)
      intro condition rest _
      dsimp only
      rw [pure_eq_ok, pure_eq_ok, lowerOutcome, Query.lowered_eq]
      rfl

theorem select_lowers : ∀ budget, Lowers Query.lowered (select source budget)
    (select (source.map Char.toLower) budget)
  | 0, tokens => by
    rw [select, select]
    rfl
  | budget + 1, tokens => by
    have expression := disjunction_lowers budget
    have items := commaSeparated_lowers (selectItem_lowers budget) budget
    have expressions := commaSeparated_lowers expression budget
    have orders := commaSeparated_lowers (orderItem_lowers budget) budget
    have sources := commaSeparated_lowers fromItem_lowers budget
    rw [select, select]
    apply lowerOutcome_bind (expectWord_lowers "select" tokens)
    intro _ rest _
    dsimp only
    rw [skipWord_lowered]
    apply lowerOutcome_bind (items _)
    intro items rest _
    apply lowerOutcome_bind (expectWord_lowers "from" rest)
    intro _ rest _
    apply lowerOutcome_bind (sources rest)
    intro sources rest _
    apply lowerOutcome_bind (optional_lowers "where" expression rest)
    intro condition rest _
    apply lowerOutcome_bind (optionalList_lowers "group" expressions rest)
    intro groupBy rest _
    apply lowerOutcome_bind (optional_lowers "having" expression rest)
    intro having rest _
    apply lowerOutcome_bind (optionalList_lowers "order" orders rest)
    intro orderBy rest _
    rw [pure_eq_ok, pure_eq_ok, lowerOutcome, Query.lowered_eq]

theorem selectItem_lowers : ∀ budget, Lowers SelectItem.lowered (selectItem source budget)
    (selectItem (source.map Char.toLower) budget)
  | 0, tokens => by
    rw [selectItem, selectItem]
    rfl
  | budget + 1, tokens => by
    rw [selectItem, selectItem]
    apply lowerOutcome_bind (disjunction_lowers budget tokens)
    intro expression rest _
    exact lowerOutcome_bind (optional_lowers "as" identifier_lowers rest) fun label rest _ => rfl

theorem orderItem_lowers : ∀ budget, Lowers OrderItem.lowered (orderItem source budget)
    (orderItem (source.map Char.toLower) budget)
  | 0, tokens => by
    rw [orderItem, orderItem]
    rfl
  | budget + 1, tokens => by
    rw [orderItem, orderItem]
    apply lowerOutcome_bind (disjunction_lowers budget tokens)
    intro expression rest _
    dsimp only
    rw [direction_lowered]
    rfl

end

end Forms

end Grammar

end ObjectQuery
