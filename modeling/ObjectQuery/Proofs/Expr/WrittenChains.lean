import ObjectQuery.Proofs.Expr.Chains
import ObjectQuery.Proofs.Expr.Primaries
import ObjectQuery.Proofs.Expr.Rereading.Operators

/-!
Contract: chains of operands as texts.

The operands are numbers, quotations and names, and there are blanks around every operator. A chain
is read as its precedence says when its comparisons are apart; otherwise the reading stops at the
first comparison that is not.

Owns:
- `Written.Chain` with its text and its tokens;
- `parseExpression_chain`, which says what every chain is read as.

Does not own: operands of more than one token.
-/

namespace ObjectQuery

open Grammar Precedence Token

/-! ### Operators -/

namespace Operator

/-- The kind of the token of an operator. -/
def tokenKind : Operator → TokenKind
  | .or | .and => .word
  | .relational op => op.tokenKind
  | .arithmetic op => op.tokenKind

/-- The token of an operator at a position. -/
def token (op : Operator) (position : Nat) : Token :=
  ⟨op.tokenKind, op.symbol, position⟩

theorem spellsToken (op : Operator) : SpellsToken op.tokenKind op.symbol.toList := by
  cases op with
  | or =>
    have isName : IsName "or".toList := by decide
    exact isName.spellsToken
  | and =>
    have isName : IsName "and".toList := by decide
    exact isName.spellsToken
  | relational op => exact op.spellsToken
  | arithmetic op => exact op.spellsToken

theorem IsToken.of_isWord
    {op : Operator}
    {token : Token}
    {word : String}
    (isWord : token.isWord word = true)
    (joins : operatorAt? op.level token = some op.join)
    (binding : wordBinding word = op.level)
    (other : word ∉ ["is", "not", "in", "where"]) :
    op.IsToken token := by
  simp only [List.mem_cons, List.not_mem_nil, or_false, not_or] at other
  obtain ⟨notIs, notNot, notIn, notWhere⟩ := other
  refine ⟨joins, ?_, follows_of_isWord isWord (by omega) notWhere, ?_⟩
  · rw [Token.binding, kind_of_isWord isWord, lower_of_isWord isWord]
    exact binding
  · simp [isWord_eq isWord, notIs, notNot, notIn]

theorem IsToken.of_symbol
    {op : Operator}
    {token : Token}
    (joins : operatorAt? op.level token = some op.join)
    (binding : token.binding = op.level)
    (isSymbol : token.kind ∉ [.word, .dot, .leftParen]) :
    op.IsToken token := by
  simp only [List.mem_cons, List.not_mem_nil, or_false, not_or] at isSymbol
  obtain ⟨noWord, noDot, noParen⟩ := isSymbol
  have isWord (word : String) : token.isWord word = false := by simp [Token.isWord, noWord]
  refine ⟨joins, binding, ⟨?_, noDot, noParen, isWord "where"⟩, isWord "is", isWord "not",
    isWord "in"⟩
  rw [binding]
  exact Nat.lt_succ_self _

/-- The token of an operator is read as the operator. -/
theorem isToken_token (op : Operator) (position : Nat) : op.IsToken (op.token position) := by
  cases op with
  | or =>
    have isWord : Token.isWord "or" (token .or position) = true :=
      word_isWord position (Text.toLower_eq (by decide))
    exact .of_isWord isWord (by simp [operatorAt?, level, orOperator?, isWord, join]) rfl
      (by decide)
  | and =>
    have isWord : Token.isWord "and" (token .and position) = true :=
      word_isWord position (Text.toLower_eq (by decide))
    exact .of_isWord isWord (by simp [operatorAt?, level, andOperator?, isWord, join]) rfl
      (by decide)
  | relational op =>
    have joins : operatorAt? 3 (token (.relational op) position) = some (.relational op) := by
      show (comparison? ⟨op.tokenKind, op.symbol, position⟩).map Expr.relational = _
      rw [(op.comparison?_token position).1]
      rfl
    cases op with
    | like =>
      have isWord : Token.isWord "like" (token (.relational .like) position) = true :=
        word_isWord position (Text.toLower_eq (by decide))
      exact .of_isWord isWord joins rfl (by decide)
    | _ => exact .of_symbol joins rfl (by simp [token, tokenKind, RelationalOp.tokenKind])
  | arithmetic op =>
    cases op <;>
      exact .of_symbol rfl rfl (by simp [token, tokenKind, ArithmeticOp.tokenKind])

end Operator

/-! ### Chains and their texts -/

namespace Written

/-- An operand of one token: a number, a quotation, or a name that is no keyword. -/
inductive Operand where
  | number (text : String) (value : Value) (isNumber : IsNumber text.toList)
      (stands : numberValue? text = some value)
  | quotation (content : String)
  | name (text : String) (isName : IsName text.toList)
      (noKeyword : ¬IsKeyword ("not" :: pathWords) text)

namespace Operand

/-- The operand as it is written. -/
def text : Operand → String
  | number text .. => text
  | quotation content => Text.quote content
  | name text .. => text

/-- What the operand stands for. -/
def tree : Operand → Expr
  | number _ value .. => .literal value
  | quotation content => .literal (.string content)
  | name text .. => .path ⟨[], text⟩

/-- The kind of the token of the operand. -/
def tokenKind : Operand → TokenKind
  | number .. => .number
  | quotation _ => .string
  | name .. => .word

/-- The token of the operand at a position. -/
def token (operand : Operand) (position : Nat) : Token :=
  ⟨operand.tokenKind, operand.text, position⟩

theorem scans (operand : Operand) (position : Nat) :
    Scans position operand.text.toList [operand.token position] := by
  cases operand with
  | number text value isNumber stands => exact .wholeNumber isNumber position
  | quotation content => exact .wholeQuote content position
  | name text isName noKeyword => exact .wholeName isName position

/-- A name that is no keyword is a path. -/
theorem isPrimary_name
    {source : List Char}
    {token : Token}
    (isWord : token.kind = .word)
    (noKeyword : token.lower ∉ pathWords) :
    IsPrimary source 3 [token] (.path ⟨[], token.text⟩) := by
  have notTrue := isWord_eq_false_of_not_mem noKeyword "true" (by decide)
  have notFalse := isWord_eq_false_of_not_mem noKeyword "false" (by decide)
  have notNull := isWord_eq_false_of_not_mem noKeyword "null" (by decide)
  have notTag := isWord_eq_false_of_not_mem noKeyword "soodaclass" (by decide)
  refine isPrimary_word isWord (leads_of_opening isWord rfl) ?_ ?_
  · exact fun rest follows => startsWithWord_where_eq_false follows
  · intro rest follows budget enough
    obtain ⟨budget, rfl⟩ := Nat.exists_eq_add_of_le' enough
    have unopened := startsWith_leftParen_eq_false follows
    have noWhere := startsWithWord_where_eq_false follows
    have read : pathTail source (budget + 1) [] token.text rest =
        .ok (.path ⟨[], token.text⟩, rest) := pathTail_path follows
    rw [List.nil_append]
    simpa [wordPrimary, notTrue, notFalse, notNull, notTag, unopened, startsShortQuery, noWhere]
      using read

/-- The token of an operand is an operand of the tree. -/
theorem isOperand (operand : Operand) (source : List Char) (position : Nat) :
    IsOperand source [operand.token position] operand.tree := by
  cases operand with
  | number text value isNumber stands =>
    exact ⟨(isPrimary_number rfl stands).mono (by decide), nofun⟩
  | quotation content =>
    exact ⟨(isPrimary_string rfl (stringValue?_quote content position)).mono (by decide), nofun⟩
  | name text isName noKeyword =>
    obtain ⟨notNot, notAmong⟩ := not_or.mp (mt List.mem_cons.mpr noKeyword)
    refine ⟨isPrimary_name rfl notAmong, fun opening => notNot ?_⟩
    exact Option.some.inj opening

end Operand

/-- An operator with the operand behind it, and how many blanks more than one stand in front of the
operator and behind it. -/
structure Link where
  wider : Nat
  operator : Operator
  widerBehind : Nat
  operand : Operand

/-- The link as it is written, with the blanks in front of it. -/
def Link.text (link : Link) : List Char :=
  List.replicate (link.wider + 1) ' ' ++
    (link.operator.symbol.toList ++
      (List.replicate (link.widerBehind + 1) ' ' ++ link.operand.text.toList))

namespace Link

variable {source : List Char} {position : Nat}

/-- The place of the operator in a link that stands at a position. -/
def operatorPosition (link : Link) (position : Nat) : Nat :=
  position + (link.wider + 1)

/-- The place of the operand in a link that stands at a position. -/
def operandPosition (link : Link) (position : Nat) : Nat :=
  link.operatorPosition position + byteLength link.operator.symbol.toList + (link.widerBehind + 1)

/-- The tokens of a link that stands at a position. -/
def tokens (link : Link) (position : Nat) : List Token :=
  [link.operator.token (link.operatorPosition position),
    link.operand.token (link.operandPosition position)]

theorem scans_blanks
    {text : List Char}
    {tokens : List Token}
    (count : Nat)
    (behind : Scans (position + count) text tokens) :
    Scans position (List.replicate count ' ' ++ text) tokens := by
  induction count generalizing position with
  | zero => exact behind
  | succ count inductionHypothesis =>
    apply Scans.space
    apply inductionHypothesis
    rwa [Nat.add_assoc, Nat.add_comm 1 count]

theorem scans (link : Link) (position : Nat) :
    Scans position link.text (link.tokens position) := by
  have operand := scans_blanks (link.widerBehind + 1)
    (link.operand.scans (link.operandPosition position))
  have operator := link.operator.spellsToken.scans operand
  rw [String.ofList_toList] at operator
  exact scans_blanks (link.wider + 1) operator

theorem separated (links : List Link) : Separated (links.flatMap text) := by
  cases links with
  | nil => exact separated_nil
  | cons link links => exact separated_cons (by decide)

/-- The tokens of links from a position on. -/
def tokensOf : Nat → List Link → List Token
  | _, [] => []
  | position, link :: links =>
    link.tokens position ++ tokensOf (position + byteLength link.text) links

theorem scans_tokensOf (links : List Link) (position : Nat) :
    Scans position (links.flatMap text) (tokensOf position links) := by
  induction links generalizing position with
  | nil => exact .nil
  | cons link links inductionHypothesis =>
    rw [List.flatMap_cons]
    exact (link.scans position).append (separated links) (inductionHypothesis _)

theorem tokensOf_append (before after : List Link) (position : Nat) :
    tokensOf position (before ++ after) =
      tokensOf position before ++ tokensOf (position + byteLength (before.flatMap text)) after := by
  induction before generalizing position with
  | nil => simp [tokensOf]
  | cons link before inductionHypothesis =>
    rw [List.cons_append, tokensOf, inductionHypothesis, tokensOf, List.flatMap_cons,
      byteLength_append, Nat.add_assoc, List.append_assoc]

end Link

/-- Operands with operators between them. -/
structure Chain where
  first : Operand
  links : List Link

namespace Chain

variable {source : List Char}

/-- The chain as it is written. -/
def text (chain : Chain) : List Char :=
  chain.first.text.toList ++ chain.links.flatMap Link.text

/-- The chain with further links behind it. -/
def extend (chain : Chain) (links : List Link) : Chain :=
  ⟨chain.first, chain.links ++ links⟩

/-- The operators of the chain with the trees of the operands behind them. -/
def trees (chain : Chain) : Links :=
  chain.links.map fun link => (link.operator, link.operand.tree)

/-- What the chain stands for. -/
def tree (chain : Chain) : Expr :=
  Precedence.tree chain.first.tree chain.trees

/-- Between any two comparisons of the chain there is an `and` or an `or`. -/
def Apart (chain : Chain) : Prop :=
  Precedence.Apart chain.trees

instance (chain : Chain) : Decidable chain.Apart :=
  decidableApart chain.trees

/-- The tokens of the chain. -/
def tokens (chain : Chain) : List Token :=
  chain.first.token 0 :: Link.tokensOf (byteLength chain.first.text.toList) chain.links

theorem tokens_extend (chain : Chain) (links : List Link) :
    (chain.extend links).tokens =
      chain.tokens ++ Link.tokensOf (byteLength chain.text) links := by
  rw [tokens, extend, Link.tokensOf_append, text, byteLength_append]
  rfl

theorem scans (chain : Chain) : Scans 0 (String.ofList chain.text).toList chain.tokens := by
  have links := Link.scans_tokensOf chain.links (0 + byteLength chain.first.text.toList)
  have scans := (chain.first.scans 0).append (Link.separated chain.links) links
  rwa [String.toList_ofList, text, tokens, ← Nat.zero_add (byteLength _)]

theorem spellsChain_tokensOf
    {token : Token}
    {e : Expr}
    (isOperand : IsOperand source [token] e)
    (links : List Link)
    (position : Nat) :
    SpellsChain source (token :: Link.tokensOf position links) e
      (links.map fun link => (link.operator, link.operand.tree)) := by
  induction links generalizing token e position with
  | nil => exact .operand isOperand
  | cons link links inductionHypothesis =>
    exact .link isOperand (link.operator.isToken_token _)
      (inductionHypothesis (link.operand.isOperand source _) _)

/-- The tokens of a chain that is apart are read as its tree, whatever may follow them. -/
theorem reads
    {chain : Chain}
    {rest : List Token}
    (apart : chain.Apart)
    (mayFollow : ∀ token ∈ rest.head?, MayFollow 1 chain.trees token) :
    Reads (disjunction source) (budgetFor (chain.tokens ++ rest).length) chain.tokens chain.tree
      rest := by
  have spells := spellsChain_tokensOf (chain.first.isOperand source 0) chain.links
    (byteLength chain.first.text.toList)
  have few : chain.trees.length ≤ chain.tokens.length := spells.length_le
  have read := readsChains_disjunction _ _ _ _ spells (fun link _ => link.1.one_le_level) apart
    mayFollow
  apply read.mono
  show 10 + chain.trees.length ≤ budgetFor (chain.tokens ++ rest).length
  rw [budgetFor, List.length_append]
  omega

/-- The first links of a chain are apart, up to one that is not. -/
theorem exists_crowded {chain : Chain} (crowded : ¬chain.Apart) :
    ∃ (front : Chain) (link : Link) (after : List Link),
      chain = front.extend (link :: after) ∧ front.Apart ∧ ¬(front.extend [link]).Apart := by
  obtain ⟨first, links⟩ := chain
  induction links using List.reverseRec with
  | nil => exact absurd apart_nil crowded
  | append_singleton links last inductionHypothesis =>
    by_cases apart : (⟨first, links⟩ : Chain).Apart
    · exact ⟨⟨first, links⟩, last, [], rfl, apart, crowded⟩
    · obtain ⟨front, link, after, equal, isApart, isCrowded⟩ := inductionHypothesis apart
      obtain ⟨rfl, rfl⟩ := Chain.mk.inj equal
      exact ⟨front, link, after ++ [last], by simp [extend], isApart, isCrowded⟩

/-- The link is a comparison behind a pending one. -/
theorem pending_of_crowded
    {front : Chain}
    {link : Link}
    (apart : front.Apart)
    (crowded : ¬(front.extend [link]).Apart) :
    link.operator.level = 3 ∧ Pending front.trees := by
  rw [Apart, trees, extend, List.map_append] at crowded
  exact pending_of_not_apart apart crowded

end Chain

end Written

/-! ### Whole texts -/

open Written

/-- A text whose first tokens a form takes is read when no others are left; otherwise the reading
stops at the first one that is left. -/
theorem Grammar.parseText_of_reads
    {α : Type}
    {form : List Char → Nat → List Token → Except Stop (α × List Token)}
    {source : String}
    {tokens rest : List Token}
    {value : α}
    (scans : Scans 0 source.toList (tokens ++ rest))
    (reads : Reads (form source.toList) (budgetFor (tokens ++ rest).length) tokens value rest) :
    parseText form source =
      match rest with
      | [] => .ok value
      | token :: _ => .error (.unexpectedToken (.token .endOfInput) token) := by
  have scanned : Token.scan source = .ok (tokens ++ rest) := scanFrom_eq_ok_iff.mpr scans
  rw [parseText, scanned, ok_bind, whole, reads _ (Nat.le_refl _)]
  cases rest <;> rfl

theorem parseExpression_of_apart {chain : Chain} (apart : chain.Apart) :
    parseExpression (String.ofList chain.text) = .ok chain.tree := by
  have scans := chain.scans
  rw [← List.append_nil chain.tokens] at scans
  exact parseText_of_reads scans (Chain.reads apart nofun)

theorem parseExpression_of_crowded
    {front : Chain}
    {link : Link}
    (after : List Link)
    (apart : front.Apart)
    (crowded : ¬(front.extend [link]).Apart) :
    parseExpression (String.ofList (front.extend (link :: after)).text) =
      .error (.unexpectedToken (.token .endOfInput)
        (link.operator.token (link.operatorPosition (byteLength front.text)))) := by
  obtain ⟨isComparison, pending⟩ := Chain.pending_of_crowded apart crowded
  have isToken := link.operator.isToken_token (link.operatorPosition (byteLength front.text))
  have scans := (front.extend (link :: after)).scans
  rw [Chain.tokens_extend] at scans
  apply parseText_of_reads scans (Chain.reads apart ?_)
  intro token head
  obtain rfl := Option.some.inj head
  have follows := isToken.follows
  rw [isComparison] at follows
  exact .inr ⟨follows, isToken.binding.trans isComparison, pending⟩

/-- A chain of operands and operators is read as its tree when there is an `and` or an `or` between
any two of its comparisons. Otherwise the reading fails, with an error of the grammar at the first
comparison behind another one that no `and` and no `or` has ended. -/
theorem parseExpression_chain (chain : Chain) :
    (chain.Apart → parseExpression (String.ofList chain.text) = .ok chain.tree) ∧
      (¬chain.Apart →
        ∃ (front : Chain) (link : Link) (after : List Link),
          chain = front.extend (link :: after) ∧ front.Apart ∧ ¬(front.extend [link]).Apart ∧
            ∃ error, parseExpression (String.ofList chain.text) = .error error ∧
              error.kind = .grammatical ∧
              error.position? = some (link.operatorPosition (byteLength front.text))) := by
  constructor
  · exact parseExpression_of_apart
  · intro crowded
    obtain ⟨front, link, after, rfl, isApart, isCrowded⟩ := Chain.exists_crowded crowded
    exact ⟨front, link, after, rfl, isApart, isCrowded, _,
      parseExpression_of_crowded after isApart isCrowded, rfl, rfl⟩

/-- A chain with operators of every level, and one whose second stretch compares twice. -/
theorem parseExpression_chain_levels :
    parseExpression "a or 'x'  and 'y' = 'z' - 'u' - 'v' * 'w'" =
        .ok (.or (.path ⟨[], "a"⟩)
          (.and (.literal (.string "x"))
            (.relational .equal (.literal (.string "y"))
              (.binary .subtract
                (.binary .subtract (.literal (.string "z")) (.literal (.string "u")))
                (.binary .multiply (.literal (.string "v")) (.literal (.string "w"))))))) ∧
      ∃ error, parseExpression "'x' = 'y' or 'x' < 'y' - 'z' like 'u'" = .error error ∧
        error.kind = .grammatical := by
  let name : Operand := .name "a" (by decide) (by
    rw [IsKeyword, Text.toLower_eq (show "a".toList.map Char.toLower = "a".toList by decide)]
    decide)
  let mixed : Chain :=
    ⟨name,
      [⟨0, .or, 0, .quotation "x"⟩, ⟨1, .and, 0, .quotation "y"⟩,
        ⟨0, .relational .equal, 0, .quotation "z"⟩, ⟨0, .arithmetic .subtract, 0, .quotation "u"⟩,
        ⟨0, .arithmetic .subtract, 0, .quotation "v"⟩,
        ⟨0, .arithmetic .multiply, 0, .quotation "w"⟩]⟩
  let crowded : Chain :=
    ⟨.quotation "x",
      [⟨0, .relational .equal, 0, .quotation "y"⟩, ⟨0, .or, 0, .quotation "x"⟩,
        ⟨0, .relational .less, 0, .quotation "y"⟩, ⟨0, .arithmetic .subtract, 0, .quotation "z"⟩,
        ⟨0, .relational .like, 0, .quotation "u"⟩]⟩
  constructor
  · have isText : "a or 'x'  and 'y' = 'z' - 'u' - 'v' * 'w'" = String.ofList mixed.text := by
      decide
    rw [isText, (parseExpression_chain mixed).1 (by decide)]
    cbv
  · have isText : "'x' = 'y' or 'x' < 'y' - 'z' like 'u'" = String.ofList crowded.text := by decide
    rw [isText]
    obtain ⟨_, _, _, -, -, -, error, fails, kind, -⟩ :=
      (parseExpression_chain crowded).2 (by decide)
    exact ⟨error, fails, kind⟩

end ObjectQuery
