import ObjectQuery.Expr
import ObjectQuery.Text.Blank
import ObjectQuery.Text.Digits
import ObjectQuery.Token.Lexer

/-!
Contract: expressions and queries read from text.

Reading descends from the loosest operators to the tightest: `or`, `and`, `not`, comparison, sum,
product, unary minus, primary. Each step takes the tokens that are left and returns a tree with the
tokens behind it, or the point at which it stopped.

Owns:
- `Stop`, where and why reading stopped;
- `Grammar`, one reader for each form of the language;
- `parseExpression`, `parseCondition` and `parseQuery`, which read a whole text.

Does not own: tokens.
-/

namespace ObjectQuery

/-- Why reading stopped: the token in front of the remaining ones does not fit, or the budget of
steps is used up. -/
inductive Stop where
  | unexpected (expected : Expectation) (remaining : List Token)
  | outOfBudget
deriving DecidableEq, Repr

namespace Grammar

/-! ## Single tokens -/

/-- The next token is this word. -/
def startsWithWord (word : String) : List Token → Bool
  | token :: _ => token.isWord word
  | [] => false

/-- The next token is of this kind. -/
def startsWith (kind : TokenKind) : List Token → Bool
  | token :: _ => token.kind == kind
  | [] => false

/-- Drops the next token when it is this word, and tells whether it was. -/
def skipWord (word : String) : List Token → Bool × List Token
  | token :: rest => if token.isWord word then (true, rest) else (false, token :: rest)
  | [] => (false, [])

/-- Reads this word. -/
def expectWord (word : String) : List Token → Except Stop (Token × List Token)
  | token :: rest =>
    if token.isWord word then .ok (token, rest)
    else .error (.unexpected (.word word) (token :: rest))
  | [] => .error (.unexpected (.word word) [])

/-- Reads a token of this kind. -/
def expect (kind : TokenKind) : List Token → Except Stop (Token × List Token)
  | token :: rest =>
    if token.kind = kind then .ok (token, rest)
    else .error (.unexpected (.token kind) (token :: rest))
  | [] => .error (.unexpected (.token kind) [])

/-- Reads a name. -/
def identifier (tokens : List Token) : Except Stop (String × List Token) := do
  let (token, rest) ← expect .word tokens
  pure (token.text, rest)

/-! ## Rows -/

/-- Reads `item`, then further items behind commas. -/
def commaSeparated {α : Type}
    (item : List Token → Except Stop (α × List Token)) :
    Nat → List Token → Except Stop (List α × List Token)
  | 0, _ => .error .outOfBudget
  | budget + 1, tokens => do
    let (first, rest) ← item tokens
    match rest with
    | token :: after =>
      if token.kind = .comma then
        let (others, rest) ← commaSeparated item budget after
        pure (first :: others, rest)
      else
        pure ([first], token :: after)
    | [] => pure ([first], [])

/-- Reads items in parentheses; there may be none. -/
def parenthesized {α : Type}
    (item : List Token → Except Stop (α × List Token))
    (budget : Nat)
    (tokens : List Token) : Except Stop (List α × List Token) := do
  let (_, rest) ← expect .leftParen tokens
  if startsWith .rightParen rest then
    let (_, rest) ← expect .rightParen rest
    pure ([], rest)
  else
    let (items, rest) ← commaSeparated item budget rest
    let (_, rest) ← expect .rightParen rest
    pure (items, rest)

/-- Joins `left` with further operands by the operators between them, from left to right. -/
def chain
    (operator? : Token → Option (Expr → Expr → Expr))
    (operand : List Token → Except Stop (Expr × List Token)) :
    Nat → Expr → List Token → Except Stop (Expr × List Token)
  | 0, _, _ => .error .outOfBudget
  | budget + 1, left, tokens =>
    match tokens with
    | [] => .ok (left, [])
    | token :: rest =>
      match operator? token with
      | none => .ok (left, token :: rest)
      | some join => do
        let (right, rest) ← operand rest
        chain operator? operand budget (join left right) rest

/-- Reads operands joined by operators of one level. -/
def joined
    (operator? : Token → Option (Expr → Expr → Expr))
    (operand : List Token → Except Stop (Expr × List Token))
    (budget : Nat)
    (tokens : List Token) : Except Stop (Expr × List Token) := do
  let (left, rest) ← operand tokens
  chain operator? operand budget left rest

/-- Reads what follows a word, when the word is there. -/
def optional {α : Type}
    (word : String)
    (content : List Token → Except Stop (α × List Token))
    (tokens : List Token) : Except Stop (Option α × List Token) :=
  match skipWord word tokens with
  | (true, rest) => do
    let (found, rest) ← content rest
    pure (some found, rest)
  | (false, rest) => .ok (none, rest)

/-- Reads a list behind a word and `by`, when the word is there. -/
def optionalList {α : Type}
    (word : String)
    (items : List Token → Except Stop (List α × List Token))
    (tokens : List Token) : Except Stop (List α × List Token) :=
  match skipWord word tokens with
  | (true, rest) => do
    let (_, rest) ← expectWord "by" rest
    items rest
  | (false, rest) => .ok ([], rest)

/-! ## Operators -/

/-- `or` and its symbol. -/
def orOperator? (token : Token) : Option (Expr → Expr → Expr) :=
  if token.isWord "or" || token.kind == .doubleBar then some .or else none

/-- `and` and its symbol. -/
def andOperator? (token : Token) : Option (Expr → Expr → Expr) :=
  if token.isWord "and" || token.kind == .doubleAmpersand then some .and else none

/-- The operators of sums. -/
def sumOperator? (token : Token) : Option (Expr → Expr → Expr) :=
  match token.kind with
  | .plus => some (.binary .add)
  | .minus => some (.binary .subtract)
  | _ => none

/-- The operators of products. -/
def productOperator? (token : Token) : Option (Expr → Expr → Expr) :=
  match token.kind with
  | .star => some (.binary .multiply)
  | .slash => some (.binary .divide)
  | .percent => some (.binary .modulo)
  | _ => none

/-- The comparisons. -/
def comparison? (token : Token) : Option RelationalOp :=
  if token.isWord "like" then some .like
  else
    match token.kind with
    | .equal => some .equal
    | .notEqual => some .notEqual
    | .less => some .less
    | .lessOrEqual => some .lessOrEqual
    | .greater => some .greater
    | .greaterOrEqual => some .greaterOrEqual
    | _ => none

/-! ## Literals and parameters -/

/-- The value of a number: with a point a decimal, else an integer of 32 or of 64 bits, and a
decimal when it is greater still. -/
def numberValue? (text : String) : Option Value :=
  let chars := text.toList
  if chars.contains '.' then
    if chars.count '.' = 1 ∧ chars.getLast? ≠ some '.' then
      (Decimal.ofText? text).map .decimal
    else
      none
  else
    let value : Int := Text.digitsValue chars
    match Integer.make? .w32 value with
    | some n => some (.integer n)
    | none =>
      match Integer.make? .w64 value with
      | some n => some (.integer n)
      | none => (Decimal.ofText? text).map .decimal

/-- Reads a number, which stands in front of the tokens. -/
def number (token : Token) (rest : List Token) : Except Stop (Expr × List Token) :=
  match numberValue? token.text with
  | some value => .ok (.literal value, rest)
  | none => .error (.unexpected .numericLiteral (token :: rest))

/-- Reads a string, which stands in front of the tokens. -/
def string (token : Token) (rest : List Token) : Except Stop (Expr × List Token) :=
  match token.stringValue? with
  | some text => .ok (.literal (.string text), rest)
  | none => .error (.unexpected (.token .string) (token :: rest))

/-- The index that a number token stands for: digits only, below `2 ^ 64`. -/
def parameterIndex? (text : String) : Option Nat :=
  let chars := text.toList
  if chars.all Char.isDigit && decide (Text.digitsValue chars < 2 ^ 64) then
    some (Text.digitsValue chars)
  else
    none

/-- Reads a parameter behind its opening brace. -/
def parameter (tokens : List Token) : Except Stop (Expr × List Token) := do
  let (token, rest) ← expect .number tokens
  match parameterIndex? token.text with
  | none => .error (.unexpected .parameterIndex tokens)
  | some index =>
    if startsWith .colon rest then
      let (_, rest) ← expect .colon rest
      let (modifier, rest) ← identifier rest
      let (_, rest) ← expect .rightCurly rest
      pure (.parameter index (some modifier), rest)
    else
      let (_, rest) ← expect .rightCurly rest
      pure (.parameter index none, rest)

/-! ## Raw text -/

/-- The text without its first bytes. -/
def dropBytes : Nat → List Char → List Char
  | _, [] => []
  | 0, text => text
  | bytes + 1, c :: rest => dropBytes (bytes + 1 - c.utf8Size) rest

/-- The characters of the first bytes of a text. -/
def takeBytes : Nat → List Char → List Char
  | _, [] => []
  | 0, _ => []
  | bytes + 1, c :: rest => c :: takeBytes (bytes + 1 - c.utf8Size) rest

/-- The source between two bytes. -/
def slice (source : List Char) (start stop : Nat) : List Char :=
  takeBytes (stop - start) (dropBytes start source)

/-- The parenthesis that closes `depth` open ones, with the tokens behind it. -/
def closing? : Nat → List Token → Option (Token × List Token)
  | _, [] => none
  | depth, token :: rest =>
    match token.kind with
    | .leftParen => closing? (depth + 1) rest
    | .rightParen => if depth ≤ 1 then some (token, rest) else closing? (depth - 1) rest
    | _ => closing? depth rest

/-- Reads raw text behind its opening parenthesis: the source up to the matching one, without
blanks at its ends. -/
def rawText
    (source : List Char)
    (opening : Token)
    (tokens : List Token) : Except Stop (Expr × List Token) :=
  match closing? 1 tokens with
  | some (close, rest) =>
    .ok (.raw (String.ofList
      (Text.trimChars (slice source (opening.position + 1) close.position))), rest)
  | none => .error (.unexpected (.token .rightParen) [])

/-! ## From lists -/

/-- The words that end an item of the from list instead of naming it. -/
def clauseWords : List String :=
  ["where", "group", "having", "order", "select", "from", "by", "as", "and", "or", "not"]

/-- Reads a class and its label, with or without `as` in front. -/
def fromItem (tokens : List Token) : Except Stop (FromItem × List Token) := do
  let (className, rest) ← identifier tokens
  match skipWord "as" rest with
  | (true, rest) =>
    let (label, rest) ← identifier rest
    pure (⟨className, some label⟩, rest)
  | (false, []) => pure (⟨className, none⟩, [])
  | (false, token :: after) =>
    if token.kind = .word ∧ !clauseWords.contains token.lower then
      pure (⟨className, some token.text⟩, after)
    else
      pure (⟨className, none⟩, token :: after)

/-- Reads the direction of an order-by item, ascending when none is given. -/
def direction (tokens : List Token) : Bool × List Token :=
  match skipWord "desc" tokens with
  | (true, rest) => (false, rest)
  | (false, rest) => (true, (skipWord "asc" rest).2)

/-- A name that is followed by `where`, which starts a query without a select list. -/
def startsShortQuery : List Token → Bool
  | token :: rest => token.kind == .word && startsWithWord "where" rest
  | [] => false

/-! ## The recursive forms -/

section

variable (source : List Char)

mutual

/-- Conditions joined by `or`. -/
def disjunction : Nat → List Token → Except Stop (Expr × List Token)
  | 0, _ => .error .outOfBudget
  | budget + 1, tokens => joined orOperator? (conjunction budget) budget tokens

/-- Conditions joined by `and`. -/
def conjunction : Nat → List Token → Except Stop (Expr × List Token)
  | 0, _ => .error .outOfBudget
  | budget + 1, tokens => joined andOperator? (negation budget) budget tokens

/-- A comparison with any number of `not` in front. -/
def negation : Nat → List Token → Except Stop (Expr × List Token)
  | 0, _ => .error .outOfBudget
  | budget + 1, [] => comparison budget []
  | budget + 1, token :: rest =>
    if token.isWord "not" || token.kind == .bang then do
      let (operand, rest) ← negation budget rest
      pure (.not operand, rest)
    else
      comparison budget (token :: rest)

/-- A sum, or one sum compared with another, with a list or with null. -/
def comparison : Nat → List Token → Except Stop (Expr × List Token)
  | 0, _ => .error .outOfBudget
  | budget + 1, tokens => do
    let (left, rest) ← sum budget tokens
    if startsWithWord "is" rest then
      let (_, rest) ← expectWord "is" rest
      let (negated, rest) := skipWord "not" rest
      let (_, rest) ← expectWord "null" rest
      pure (.nullTest left negated, rest)
    else if startsWithWord "not" rest &&
        (startsWithWord "like" rest.tail || startsWithWord "in" rest.tail) then
      let (positive, rest) ← comparisonTail budget left rest.tail
      pure (.not positive, rest)
    else
      comparisonTail budget left rest

/-- What may follow the left side of a comparison. -/
def comparisonTail : Nat → Expr → List Token → Except Stop (Expr × List Token)
  | 0, _, _ => .error .outOfBudget
  | _ + 1, left, [] => .ok (left, [])
  | budget + 1, left, token :: rest =>
    if token.isWord "in" then do
      let (candidates, rest) ← parenthesized (sum budget) budget rest
      pure (.oneOf left candidates, rest)
    else
      match comparison? token with
      | none => .ok (left, token :: rest)
      | some op => do
        let (right, rest) ← sum budget rest
        pure (.relational op left right, rest)

/-- Products joined by `+` and `-`. -/
def sum : Nat → List Token → Except Stop (Expr × List Token)
  | 0, _ => .error .outOfBudget
  | budget + 1, tokens => joined sumOperator? (product budget) budget tokens

/-- Operands joined by `*`, `/` and `%`. -/
def product : Nat → List Token → Except Stop (Expr × List Token)
  | 0, _ => .error .outOfBudget
  | budget + 1, tokens => joined productOperator? (unary budget) budget tokens

/-- A primary with any number of minus signs in front. -/
def unary : Nat → List Token → Except Stop (Expr × List Token)
  | 0, _ => .error .outOfBudget
  | budget + 1, [] => primary budget []
  | budget + 1, token :: rest =>
    if token.kind = .minus then do
      let (operand, rest) ← unary budget rest
      pure (.negate operand, rest)
    else
      primary budget (token :: rest)

/-- An expression without an operator at its top. -/
def primary : Nat → List Token → Except Stop (Expr × List Token)
  | 0, _ => .error .outOfBudget
  | _ + 1, [] => .error (.unexpected .expression [])
  | budget + 1, token :: rest =>
    match token.kind with
    | .number => number token rest
    | .string => string token rest
    | .leftCurly => parameter rest
    | .leftParen =>
      if startsWithWord "select" rest then do
        let (query, rest) ← select budget rest
        let (_, rest) ← expect .rightParen rest
        pure (.query query, rest)
      else do
        let (inner, rest) ← disjunction budget rest
        let (_, rest) ← expect .rightParen rest
        pure (inner, rest)
    | .star => .ok (.asterisk [], rest)
    | .word => wordPrimary budget token rest
    | _ => .error (.unexpected .expression (token :: rest))

/-- A primary that begins with a word. -/
def wordPrimary : Nat → Token → List Token → Except Stop (Expr × List Token)
  | 0, _, _ => .error .outOfBudget
  | budget + 1, token, rest =>
    if token.isWord "true" then .ok (.boolean true, rest)
    else if token.isWord "false" then .ok (.boolean false, rest)
    else if token.isWord "null" then .ok (.literal .null, rest)
    else if token.isWord "exists" && startsWith .leftParen rest then do
      let (query, rest) ← nestedQuery budget rest.tail
      let (_, rest) ← expect .rightParen rest
      pure (.nonempty query, rest)
    else if token.isWord "rawquery" && startsWith .leftParen rest then do
      let (opening, rest) ← expect .leftParen rest
      rawText source opening rest
    else if token.isWord "soodaclass" && !startsWith .leftParen rest then
      .ok (.classTag [], rest)
    else if startsShortQuery (token :: rest) then do
      let (query, rest) ← nestedQuery budget (token :: rest)
      pure (.query query, rest)
    else if startsWith .leftParen rest then do
      let (arguments, rest) ← parenthesized (disjunction budget) budget rest
      pure (.call token.text arguments, rest)
    else
      pathTail budget [] token.text rest

/-- What follows a path: further properties, or a collection or mark at its end. -/
def pathTail : Nat → List String → String → List Token → Except Stop (Expr × List Token)
  | 0, _, _, _ => .error .outOfBudget
  | budget + 1, owner, name, tokens =>
    if startsWith .dot tokens then
      let rest := tokens.tail
      if startsWith .star rest then
        .ok (.asterisk (owner ++ [name]), rest.tail)
      else do
        let (segment, rest) ← expect .word rest
        if segment.isWord "count" && !startsWith .leftParen rest then
          pure (.count owner name, rest)
        else if segment.isWord "contains" && startsWith .leftParen rest then
          let (element, rest) ← containsElement budget rest.tail
          let (_, rest) ← expect .rightParen rest
          pure (.contains owner name element, rest)
        else if segment.isWord "soodaclass" && !startsWith .leftParen rest then
          pure (.classTag (owner ++ [name]), rest)
        else
          pathTail budget (owner ++ [name]) segment.text rest
    else
      .ok (.path ⟨owner, name⟩, tokens)

/-- The argument of `Contains`: an expression, or one behind a class and `where`. -/
def containsElement : Nat → List Token → Except Stop (Expr × List Token)
  | 0, _ => .error .outOfBudget
  | budget + 1, tokens =>
    disjunction budget (if startsShortQuery tokens then tokens.drop 2 else tokens)

/-- A query nested in an expression: a full one, or a class with a condition. -/
def nestedQuery : Nat → List Token → Except Stop (Query × List Token)
  | 0, _ => .error .outOfBudget
  | budget + 1, tokens =>
    if startsWithWord "select" tokens then
      select budget tokens
    else do
      let (className, rest) ← identifier tokens
      let (condition, rest) ← optional "where" (disjunction budget) rest
      pure (.selectAll className condition, rest)

/-- A full query. -/
def select : Nat → List Token → Except Stop (Query × List Token)
  | 0, _ => .error .outOfBudget
  | budget + 1, tokens => do
    let (_, rest) ← expectWord "select" tokens
    let (distinct, rest) := skipWord "distinct" rest
    let (items, rest) ← commaSeparated (selectItem budget) budget rest
    let (_, rest) ← expectWord "from" rest
    let (sources, rest) ← commaSeparated fromItem budget rest
    let (condition, rest) ← optional "where" (disjunction budget) rest
    let (groupBy, rest) ←
      optionalList "group" (commaSeparated (disjunction budget) budget) rest
    let (having, rest) ← optional "having" (disjunction budget) rest
    let (orderBy, rest) ← optionalList "order" (commaSeparated (orderItem budget) budget) rest
    pure (⟨distinct, items, sources, condition, groupBy, having, orderBy⟩, rest)

/-- An item of the select list. -/
def selectItem : Nat → List Token → Except Stop (SelectItem × List Token)
  | 0, _ => .error .outOfBudget
  | budget + 1, tokens => do
    let (expression, rest) ← disjunction budget tokens
    let (label, rest) ← optional "as" identifier rest
    pure (⟨expression, label⟩, rest)

/-- An item of the order-by list. -/
def orderItem : Nat → List Token → Except Stop (OrderItem × List Token)
  | 0, _ => .error .outOfBudget
  | budget + 1, tokens => do
    let (expression, rest) ← disjunction budget tokens
    let (ascending, rest) := direction rest
    pure (⟨expression, ascending⟩, rest)

end

end

/-- Enough steps for a text of that many tokens: between two tokens that are taken, fewer than
sixteen forms are entered. -/
def budgetFor (tokenCount : Nat) : Nat :=
  16 * (tokenCount + 1)

/-- The error for a reading that stopped, in a source of that many bytes. -/
def Stop.toError (sourceBytes : Nat) : Stop → Error
  | .unexpected expected (token :: _) => .unexpectedToken expected token
  | .unexpected expected [] => .unexpectedToken expected (Token.endOfInput sourceBytes)
  | .outOfBudget => .unexpectedToken .expression (Token.endOfInput sourceBytes)

/-- Reads all of a list of tokens as one form. -/
def whole {α : Type}
    (form : Nat → List Token → Except Stop (α × List Token))
    (tokens : List Token) : Except Stop α :=
  match form (budgetFor tokens.length) tokens with
  | .ok (result, []) => .ok result
  | .ok (_, token :: rest) => .error (.unexpected (.token .endOfInput) (token :: rest))
  | .error stop => .error stop

/-- Reads a whole text as one form. -/
def parseText {α : Type}
    (form : List Char → Nat → List Token → Except Stop (α × List Token))
    (source : String) : Except Error α := do
  let tokens ← Token.scan source
  (whole (form source.toList) tokens).mapError (Stop.toError source.utf8ByteSize)

end Grammar

/-- Reads an expression. -/
def parseExpression (source : String) : Except Error Expr :=
  Grammar.parseText Grammar.disjunction source

/-- Reads a query. -/
def parseQuery (source : String) : Except Error Query :=
  Grammar.parseText Grammar.select source

/-- Reads the condition of a where clause: an expression that is a condition, or one whose type is
known at run time only. The error for any other points at the first token. -/
def parseCondition (source : String) : Except Error Expr := do
  let tokens ← Token.scan source
  let e ← parseExpression source
  if e.isBoolean || e.isHostTyped then
    pure e
  else
    .error (.scalarCondition (tokens.head?.map (·.position) |>.getD source.utf8ByteSize))

end ObjectQuery
