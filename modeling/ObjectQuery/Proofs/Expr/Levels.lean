import ObjectQuery.Proofs.Expr.Shelter
import ObjectQuery.Proofs.Expr.Steps
import ObjectQuery.Proofs.Text.Words

/-!
Contract: the levels of operators, from a primary up to a disjunction.

A form that has read its tokens stops in front of a token that binds more loosely than the form, so
a primary is read as any looser form when what follows it binds more loosely still.

Owns:
- `Token.binding` and `Token.Follows`, how tightly a token joins what stands in front of it;
- `Reads`, by which a form takes some tokens and no more, on every budget from some cost on;
- `IsPrimary` and its reading as a form of each level;
- one operator between two operands, and the tests of one operand.

Does not own: texts.
-/

namespace ObjectQuery

/-- How tightly a word in lower case joins what stands in front of it. -/
def wordBinding (word : String) : Nat :=
  if word = "is" ∨ word = "not" ∨ word = "in" ∨ word = "like" then 3
  else if word = "and" then 2
  else if word = "or" then 1
  else 0

/-- How tightly the token joins what stands in front of it: products, sums, comparisons, `and`, `or`,
and tokens that do not join at all. -/
def Token.binding (token : Token) : Nat :=
  match token.kind with
  | .star | .slash | .percent => 5
  | .plus | .minus => 4
  | .equal | .notEqual | .less | .lessOrEqual | .greater | .greaterOrEqual => 3
  | .doubleAmpersand => 2
  | .doubleBar => 1
  | .word => wordBinding token.lower
  | _ => 0

/-- The token may follow a form of the level: it binds more loosely, and goes on with no primary. -/
def Token.Follows (level : Nat) (token : Token) : Prop :=
  token.binding < level ∧ token.kind ≠ .dot ∧ token.kind ≠ .leftParen ∧
    token.isWord "where" = false

theorem Token.Follows.mono
    {level higher : Nat}
    {token : Token}
    (follows : token.Follows level)
    (ordered : level ≤ higher) :
    token.Follows higher :=
  ⟨Nat.lt_of_lt_of_le follows.1 ordered, follows.2⟩

/-- A comma or a closing parenthesis may follow every form. -/
theorem Token.follows_of_kind
    {token : Token}
    (kind : token.kind = .comma ∨ token.kind = .rightParen)
    (level : Nat) :
    token.Follows (level + 1) := by
  rcases kind with isComma | isParen
  · simp [Token.Follows, Token.binding, Token.isWord, isComma]
  · simp [Token.Follows, Token.binding, Token.isWord, isParen]

theorem Token.follows_of_isWord
    {level : Nat}
    {token : Token}
    {word : String}
    (isWord : token.isWord word = true)
    (loose : wordBinding word < level)
    (notWhere : word ≠ "where") :
    token.Follows level := by
  have kind := Token.kind_of_isWord isWord
  have lower := Token.lower_of_isWord isWord
  refine ⟨?_, by simp [kind], by simp [kind], ?_⟩
  · rw [Token.binding, kind, lower]
    exact loose
  · simp [Token.isWord, lower, notWhere]

theorem Token.word_isWord
    {text word : String}
    (position : Nat)
    (lower : text.toLower = word) :
    Token.isWord word ⟨.word, text, position⟩ = true := by
  simp [Token.isWord, Token.lower, lower]

theorem Token.word_follows
    {level : Nat}
    {text word : String}
    (position : Nat)
    (lower : text.toLower = word)
    (loose : wordBinding word < level)
    (notWhere : word ≠ "where") :
    Token.Follows level ⟨.word, text, position⟩ :=
  Token.follows_of_isWord (Token.word_isWord position lower) loose notWhere

namespace Grammar

variable {α : Type} {source : List Char}
variable {token : Token} {tokens rest : List Token} {cost level : Nat} {e : Expr}

theorem Follows.mono
    {higher : Nat}
    (ordered : level ≤ higher)
    (follows : ∀ token ∈ rest.head?, token.Follows level) :
    ∀ token ∈ rest.head?, token.Follows higher :=
  fun token head => (follows token head).mono ordered

theorem Follows.head
    (follows : token.Follows level)
    (rest : List Token) :
    ∀ other ∈ (token :: rest).head?, other.Follows level := by
  intro other head
  obtain rfl : token = other := by simpa using head
  exact follows

/-! ### Operators by their binding -/

theorem productOperator?_eq_none (other : token.binding ≠ 5) : productOperator? token = none := by
  unfold productOperator?
  split <;> simp_all [Token.binding]

theorem sumOperator?_eq_none (other : token.binding ≠ 4) : sumOperator? token = none := by
  unfold sumOperator?
  split <;> simp_all [Token.binding]

theorem isWord_eq_false_of_binding
    (loose : token.binding < 3)
    (word : String)
    (among : word = "is" ∨ word = "not" ∨ word = "in" ∨ word = "like") :
    token.isWord word = false := by
  rw [Bool.eq_false_iff]
  intro isWord
  have kind := Token.kind_of_isWord isWord
  have lower := Token.lower_of_isWord isWord
  unfold Token.binding at loose
  rw [kind, lower] at loose
  simp [wordBinding, among] at loose

theorem comparison?_eq_none (loose : token.binding < 3) : comparison? token = none := by
  have notLike := isWord_eq_false_of_binding loose "like" (by simp)
  unfold comparison?
  rw [notLike]
  cases kind : token.kind <;> simp_all [Token.binding]

theorem andOperator?_eq_none (other : token.binding ≠ 2) : andOperator? token = none := by
  refine Option.eq_none_iff_forall_not_mem.mpr fun join joins => other ?_
  obtain ⟨-, isWord | isSymbol⟩ := andOperator?_cases joins
  · rw [Token.binding, Token.kind_of_isWord isWord, Token.lower_of_isWord isWord]
    rfl
  · rw [Token.binding, isSymbol]

theorem orOperator?_eq_none (other : token.binding ≠ 1) : orOperator? token = none := by
  refine Option.eq_none_iff_forall_not_mem.mpr fun join joins => other ?_
  obtain ⟨-, isWord | isSymbol⟩ := orOperator?_cases joins
  · rw [Token.binding, Token.kind_of_isWord isWord, Token.lower_of_isWord isWord]
    rfl
  · rw [Token.binding, isSymbol]

/-! ### Forms that take some tokens -/

/-- The form takes the tokens in front of `rest` and no more, on every budget from the cost on. -/
def Reads
    (form : Nat → List Token → Except Stop (α × List Token))
    (cost : Nat)
    (tokens : List Token)
    (result : α)
    (rest : List Token) : Prop :=
  ∀ budget, cost ≤ budget → form budget (tokens ++ rest) = .ok (result, rest)

theorem Reads.mono
    {form : Nat → List Token → Except Stop (α × List Token)}
    {higher : Nat}
    {result : α}
    (reads : Reads form cost tokens result rest)
    (ordered : cost ≤ higher) :
    Reads form higher tokens result rest :=
  fun budget enough => reads budget (Nat.le_trans ordered enough)

section Joined

variable {operator? : Token → Option (Expr → Expr → Expr)}
variable {operand : List Token → Except Stop (Expr × List Token)}
variable {join : Expr → Expr → Expr} {left right : Expr} {budget : Nat}

theorem chain_stops
    (stops : ∀ token ∈ rest.head?, operator? token = none) :
    chain operator? operand (budget + 1) left rest = .ok (left, rest) := by
  cases rest with
  | nil => rfl
  | cons token rest => simp [chain, stops token rfl]

theorem joined_single
    (read : operand tokens = .ok (e, rest))
    (stops : ∀ token ∈ rest.head?, operator? token = none) :
    joined operator? operand (budget + 1) tokens = .ok (e, rest) := by
  simp only [joined, read, ok_bind]
  exact chain_stops stops

theorem joined_pair
    {behind : List Token}
    (readLeft : operand tokens = .ok (left, token :: behind))
    (joins : operator? token = some join)
    (readRight : operand behind = .ok (right, rest))
    (stops : ∀ token ∈ rest.head?, operator? token = none) :
    joined operator? operand (budget + 2) tokens = .ok (join left right, rest) := by
  simp only [joined, readLeft, ok_bind, chain, joins, readRight]
  exact chain_stops stops

end Joined

/-! ### From one level to the next -/

theorem unary_of_primary
    {first : Token}
    {others : List Token}
    (reads : Reads (primary source) cost (first :: others) e rest)
    (noMinus : first.kind ≠ .minus) :
    Reads (unary source) (cost + 1) (first :: others) e rest := by
  intro budget enough
  obtain ⟨budget, rfl⟩ := Nat.exists_eq_add_of_le' (Nat.le_trans (Nat.le_add_left 1 cost) enough)
  have read := reads budget (by omega)
  rw [List.cons_append] at read ⊢
  rw [unary, if_neg noMinus, read]

theorem product_of_unary
    (reads : Reads (unary source) cost tokens e rest)
    (positive : 0 < cost)
    (follows : ∀ token ∈ rest.head?, token.Follows 5) :
    Reads (product source) (cost + 1) tokens e rest := by
  intro budget enough
  obtain ⟨budget, rfl⟩ := Nat.exists_eq_add_of_le' (Nat.le_trans (by omega : 2 ≤ cost + 1) enough)
  rw [product]
  exact joined_single (reads (budget + 1) (by omega))
    fun token head => productOperator?_eq_none (follows token head).1.ne

theorem sum_of_product
    (reads : Reads (product source) cost tokens e rest)
    (positive : 0 < cost)
    (follows : ∀ token ∈ rest.head?, token.Follows 4) :
    Reads (sum source) (cost + 1) tokens e rest := by
  intro budget enough
  obtain ⟨budget, rfl⟩ := Nat.exists_eq_add_of_le' (Nat.le_trans (by omega : 2 ≤ cost + 1) enough)
  rw [sum]
  exact joined_single (reads (budget + 1) (by omega))
    fun token head => sumOperator?_eq_none (follows token head).1.ne

/-- No word of a comparison follows. -/
theorem comparisonTail_stops
    {left : Expr}
    {budget : Nat}
    (follows : ∀ token ∈ rest.head?, token.Follows 3) :
    comparisonTail source (budget + 1) left rest = .ok (left, rest) := by
  cases rest with
  | nil => simp [comparisonTail]
  | cons token rest =>
    have loose := (follows token rfl).1
    have notIn := isWord_eq_false_of_binding loose "in" (by simp)
    rw [comparisonTail, notIn, comparison?_eq_none loose]
    simp

theorem startsWithWord_eq_false
    (follows : ∀ token ∈ rest.head?, token.Follows 3)
    (word : String)
    (among : word = "is" ∨ word = "not" ∨ word = "in" ∨ word = "like") :
    startsWithWord word rest = false := by
  cases rest with
  | nil => rfl
  | cons token rest => exact isWord_eq_false_of_binding (follows token rfl).1 word among

theorem comparison_of_sum
    (reads : Reads (sum source) cost tokens e rest)
    (positive : 0 < cost)
    (follows : ∀ token ∈ rest.head?, token.Follows 3) :
    Reads (comparison source) (cost + 1) tokens e rest := by
  intro budget enough
  obtain ⟨budget, rfl⟩ := Nat.exists_eq_add_of_le' (Nat.le_trans (by omega : 2 ≤ cost + 1) enough)
  have read := reads (budget + 1) (by omega)
  have notIs := startsWithWord_eq_false follows "is" (by simp)
  have notNot := startsWithWord_eq_false follows "not" (by simp)
  rw [comparison, read, ok_bind]
  simp only [notIs, notNot, Bool.false_and, Bool.false_eq_true, if_false]
  exact comparisonTail_stops follows

theorem negation_of_comparison
    {first : Token}
    {others : List Token}
    (reads : Reads (comparison source) cost (first :: others) e rest)
    (noBang : first.kind ≠ .bang)
    (noNot : first.isWord "not" = false) :
    Reads (negation source) (cost + 1) (first :: others) e rest := by
  intro budget enough
  obtain ⟨budget, rfl⟩ := Nat.exists_eq_add_of_le' (Nat.le_trans (Nat.le_add_left 1 cost) enough)
  have read := reads budget (by omega)
  rw [List.cons_append] at read ⊢
  rw [negation, noNot, read]
  simp [noBang]

theorem conjunction_of_negation
    (reads : Reads (negation source) cost tokens e rest)
    (positive : 0 < cost)
    (follows : ∀ token ∈ rest.head?, token.Follows 2) :
    Reads (conjunction source) (cost + 1) tokens e rest := by
  intro budget enough
  obtain ⟨budget, rfl⟩ := Nat.exists_eq_add_of_le' (Nat.le_trans (by omega : 2 ≤ cost + 1) enough)
  rw [conjunction]
  exact joined_single (reads (budget + 1) (by omega))
    fun token head => andOperator?_eq_none (follows token head).1.ne

theorem disjunction_of_conjunction
    (reads : Reads (conjunction source) cost tokens e rest)
    (positive : 0 < cost)
    (follows : ∀ token ∈ rest.head?, token.Follows 1) :
    Reads (disjunction source) (cost + 1) tokens e rest := by
  intro budget enough
  obtain ⟨budget, rfl⟩ := Nat.exists_eq_add_of_le' (Nat.le_trans (by omega : 2 ≤ cost + 1) enough)
  rw [disjunction]
  exact joined_single (reads (budget + 1) (by omega))
    fun token head => orOperator?_eq_none (follows token head).1.ne

theorem disjunction_of_comparison
    {first : Token}
    {others : List Token}
    (reads : Reads (comparison source) cost (first :: others) e rest)
    (noBang : first.kind ≠ .bang)
    (noNot : first.isWord "not" = false)
    (follows : ∀ token ∈ rest.head?, token.Follows 1) :
    Reads (disjunction source) (cost + 3) (first :: others) e rest := by
  have negated := negation_of_comparison reads noBang noNot
  have conjoined := conjunction_of_negation negated (by omega) (Follows.mono (by decide) follows)
  exact disjunction_of_conjunction conjoined (by omega) follows

theorem disjunction_of_sum
    {first : Token}
    {others : List Token}
    (reads : Reads (sum source) cost (first :: others) e rest)
    (positive : 0 < cost)
    (noBang : first.kind ≠ .bang)
    (noNot : first.isWord "not" = false)
    (follows : ∀ token ∈ rest.head?, token.Follows 1) :
    Reads (disjunction source) (cost + 4) (first :: others) e rest :=
  disjunction_of_comparison
    (comparison_of_sum reads positive (Follows.mono (by decide) follows)) noBang noNot follows

/-! ### A primary at each level -/

/-- The token may begin an operand: it is no sign, it closes nothing, and it is a word that a form
looks for in front of an expression just when this is the opening name of the operand. -/
structure Opens (opening : Option String) (token : Token) : Prop where
  noMinus : token.kind ≠ .minus
  noBang : token.kind ≠ .bang
  noClosing : token.kind ≠ .rightParen
  leads : ∀ word ∈ openingWords, (token.isWord word = true ↔ opening = some word)

/-- An operand that is not opened by the word does not begin with it. -/
theorem Opens.isWord_eq_false
    {opening : Option String}
    {word : String}
    (opens : Opens opening token)
    (among : word ∈ openingWords)
    (apart : opening ≠ some word) :
    token.isWord word = false := by
  rw [Bool.eq_false_iff]
  exact fun isWord => apart ((opens.leads word among).mp isWord)

theorem Opens.apart
    {opening : Option String}
    {word : String}
    (opens : Opens opening token)
    (among : word ∈ openingWords)
    (other : token.isWord word = false) :
    opening ≠ some word := by
  intro opening
  rw [(opens.leads word among).mpr opening] at other
  cases other

theorem Opens.apart_iff
    {opening : Option String}
    {word : String}
    (opens : Opens opening token)
    (among : word ∈ openingWords) :
    opening ≠ some word ↔ token.isWord word = false :=
  ⟨opens.isWord_eq_false among, opens.apart among⟩

theorem Opens.of_leftParen (isParen : token.kind = .leftParen) : Opens none token where
  noMinus := by simp [isParen]
  noBang := by simp [isParen]
  noClosing := by simp [isParen]
  leads := by simp [Token.isWord, isParen]

/-- The tokens are a primary that stands for the tree, whatever may follow it. -/
structure IsPrimary (source : List Char) (cost : Nat) (tokens : List Token) (e : Expr) : Prop where
  opens : ∃ first others, tokens = first :: others ∧ Opens e.opening? first
  positive : 0 < cost
  reads : ∀ rest, (∀ token ∈ rest.head?, token.Follows 6) →
    Reads (primary source) cost tokens e rest
  notShort : ∀ rest, (∀ token ∈ rest.head?, token.Follows 6) →
    startsShortQuery (tokens ++ rest) = false

namespace IsPrimary

theorem mono
    {higher : Nat}
    (isPrimary : IsPrimary source cost tokens e)
    (ordered : cost ≤ higher) :
    IsPrimary source higher tokens e where
  opens := isPrimary.opens
  positive := Nat.lt_of_lt_of_le isPrimary.positive ordered
  reads rest follows := (isPrimary.reads rest follows).mono ordered
  notShort := isPrimary.notShort

theorem unary
    (isPrimary : IsPrimary source cost tokens e)
    (follows : ∀ token ∈ rest.head?, token.Follows 6) :
    Reads (unary source) (cost + 1) tokens e rest := by
  have reads := isPrimary.reads rest follows
  obtain ⟨first, others, rfl, opens⟩ := isPrimary.opens
  exact unary_of_primary reads opens.noMinus

theorem product
    (isPrimary : IsPrimary source cost tokens e)
    (follows : ∀ token ∈ rest.head?, token.Follows 5) :
    Reads (product source) (cost + 2) tokens e rest :=
  product_of_unary (isPrimary.unary (Follows.mono (by decide) follows)) (by omega) follows

theorem sum
    (isPrimary : IsPrimary source cost tokens e)
    (follows : ∀ token ∈ rest.head?, token.Follows 4) :
    Reads (sum source) (cost + 3) tokens e rest :=
  sum_of_product (isPrimary.product (Follows.mono (by decide) follows)) (by omega) follows

theorem negation
    (isPrimary : IsPrimary source cost tokens e)
    (apart : e.opening? ≠ some "not")
    (follows : ∀ token ∈ rest.head?, token.Follows 3) :
    Reads (negation source) (cost + 5) tokens e rest := by
  have summed := isPrimary.sum (Follows.mono (by decide) follows)
  obtain ⟨first, others, rfl, opens⟩ := isPrimary.opens
  have compared := comparison_of_sum summed (by omega) follows
  exact negation_of_comparison compared opens.noBang (opens.isWord_eq_false (by decide) apart)

theorem conjunction
    (isPrimary : IsPrimary source cost tokens e)
    (apart : e.opening? ≠ some "not")
    (follows : ∀ token ∈ rest.head?, token.Follows 2) :
    Reads (conjunction source) (cost + 6) tokens e rest :=
  conjunction_of_negation (isPrimary.negation apart (Follows.mono (by decide) follows)) (by omega)
    follows

theorem disjunction
    (isPrimary : IsPrimary source cost tokens e)
    (apart : e.opening? ≠ some "not")
    (follows : ∀ token ∈ rest.head?, token.Follows 1) :
    Reads (disjunction source) (cost + 7) tokens e rest :=
  disjunction_of_conjunction (isPrimary.conjunction apart (Follows.mono (by decide) follows))
    (by omega) follows

end IsPrimary

/-! ### One operator between two primaries -/

section Pairs

variable {leftTokens rightTokens : List Token} {left right : Expr} {join : Expr → Expr → Expr}

theorem sum_pair
    (isLeft : IsPrimary source cost leftTokens left)
    (isRight : IsPrimary source cost rightTokens right)
    (joins : sumOperator? token = some join)
    (between : token.Follows 5)
    (follows : ∀ token ∈ rest.head?, token.Follows 4) :
    Reads (sum source) (cost + 3) (leftTokens ++ token :: rightTokens) (join left right) rest := by
  have positive := isLeft.positive
  intro budget enough
  obtain ⟨budget, rfl⟩ := Nat.exists_eq_add_of_le' (Nat.le_trans (by omega : 3 ≤ cost + 3) enough)
  have readLeft := isLeft.product (Follows.head between (rightTokens ++ rest)) (budget + 2)
    (by omega)
  have readRight := isRight.product (Follows.mono (by decide) follows) (budget + 2) (by omega)
  rw [sum, List.append_assoc, List.cons_append]
  exact joined_pair readLeft joins readRight
    fun token head => sumOperator?_eq_none (follows token head).1.ne

theorem product_pair
    (isLeft : IsPrimary source cost leftTokens left)
    (isRight : IsPrimary source cost rightTokens right)
    (joins : productOperator? token = some join)
    (between : token.Follows 6)
    (follows : ∀ token ∈ rest.head?, token.Follows 5) :
    Reads (product source) (cost + 2) (leftTokens ++ token :: rightTokens) (join left right)
      rest := by
  have positive := isLeft.positive
  intro budget enough
  obtain ⟨budget, rfl⟩ := Nat.exists_eq_add_of_le' (Nat.le_trans (by omega : 3 ≤ cost + 2) enough)
  have readLeft := isLeft.unary (Follows.head between (rightTokens ++ rest)) (budget + 2)
    (by omega)
  have readRight := isRight.unary (Follows.mono (by decide) follows) (budget + 2) (by omega)
  rw [product, List.append_assoc, List.cons_append]
  exact joined_pair readLeft joins readRight
    fun token head => productOperator?_eq_none (follows token head).1.ne

theorem conjunction_pair
    (isLeft : IsPrimary source cost leftTokens left)
    (isRight : IsPrimary source cost rightTokens right)
    (apart : left.opening? ≠ some "not" ∧ right.opening? ≠ some "not")
    (joins : andOperator? token = some join)
    (between : token.Follows 3)
    (follows : ∀ token ∈ rest.head?, token.Follows 2) :
    Reads (conjunction source) (cost + 6) (leftTokens ++ token :: rightTokens) (join left right)
      rest := by
  intro budget enough
  obtain ⟨budget, rfl⟩ := Nat.exists_eq_add_of_le' (Nat.le_trans (by omega : 3 ≤ cost + 6) enough)
  have readLeft := isLeft.negation apart.1 (Follows.head between (rightTokens ++ rest)) (budget + 2)
    (by omega)
  have readRight := isRight.negation apart.2 (Follows.mono (by decide) follows) (budget + 2)
    (by omega)
  rw [conjunction, List.append_assoc, List.cons_append]
  exact joined_pair readLeft joins readRight
    fun token head => andOperator?_eq_none (follows token head).1.ne

theorem disjunction_pair
    (isLeft : IsPrimary source cost leftTokens left)
    (isRight : IsPrimary source cost rightTokens right)
    (apart : left.opening? ≠ some "not" ∧ right.opening? ≠ some "not")
    (joins : orOperator? token = some join)
    (between : token.Follows 2)
    (follows : ∀ token ∈ rest.head?, token.Follows 1) :
    Reads (disjunction source) (cost + 7) (leftTokens ++ token :: rightTokens) (join left right)
      rest := by
  intro budget enough
  obtain ⟨budget, rfl⟩ := Nat.exists_eq_add_of_le' (Nat.le_trans (by omega : 3 ≤ cost + 7) enough)
  have readLeft := isLeft.conjunction apart.1 (Follows.head between (rightTokens ++ rest)) (budget + 2)
    (by omega)
  have readRight := isRight.conjunction apart.2 (Follows.mono (by decide) follows) (budget + 2)
    (by omega)
  rw [disjunction, List.append_assoc, List.cons_append]
  exact joined_pair readLeft joins readRight
    fun token head => orOperator?_eq_none (follows token head).1.ne

theorem comparison_pair
    {op : RelationalOp}
    (isLeft : IsPrimary source cost leftTokens left)
    (isRight : IsPrimary source cost rightTokens right)
    (compares : comparison? token = some op)
    (between : token.Follows 4)
    (otherWord : token.isWord "is" = false ∧ token.isWord "not" = false ∧
      token.isWord "in" = false)
    (follows : ∀ token ∈ rest.head?, token.Follows 3) :
    Reads (comparison source) (cost + 5) (leftTokens ++ token :: rightTokens)
      (.relational op left right) rest := by
  intro budget enough
  obtain ⟨budget, rfl⟩ := Nat.exists_eq_add_of_le' (Nat.le_trans (by omega : 2 ≤ cost + 5) enough)
  have readLeft := isLeft.sum (Follows.head between (rightTokens ++ rest)) (budget + 1)
    (by omega)
  have readRight := isRight.sum (Follows.mono (by decide) follows) budget (by omega)
  obtain ⟨notIs, notNot, notIn⟩ := otherWord
  rw [comparison, List.append_assoc, List.cons_append, readLeft, ok_bind]
  simp only [startsWithWord, notIs, notNot, Bool.false_and, Bool.false_eq_true, if_false]
  rw [comparisonTail, notIn, compares]
  simp only [Bool.false_eq_true, if_false, readRight, ok_bind, pure_eq_ok]

end Pairs

/-! ### Other comparisons and signs -/

theorem comparison_nullTest
    {isToken nullToken : Token}
    {notTokens : List Token}
    {negated : Bool}
    (isPrimary : IsPrimary source cost tokens e)
    (isWord : isToken.isWord "is" = true)
    (between : isToken.Follows 4)
    (skips : skipWord "not" (notTokens ++ nullToken :: rest) = (negated, nullToken :: rest))
    (nullWord : nullToken.isWord "null" = true) :
    Reads (comparison source) (cost + 4) (tokens ++ isToken :: (notTokens ++ [nullToken]))
      (.nullTest e negated) rest := by
  intro budget enough
  obtain ⟨budget, rfl⟩ := Nat.exists_eq_add_of_le' (Nat.le_trans (by omega : 1 ≤ cost + 4) enough)
  have read := isPrimary.sum (Follows.head between (notTokens ++ nullToken :: rest)) budget
    (by omega)
  have readIs : expectWord "is" (isToken :: (notTokens ++ nullToken :: rest)) =
      .ok (isToken, notTokens ++ nullToken :: rest) := expectWord_eq_ok.mpr ⟨rfl, isWord⟩
  have readNull : expectWord "null" (nullToken :: rest) = .ok (nullToken, rest) :=
    expectWord_eq_ok.mpr ⟨rfl, nullWord⟩
  have arranged : tokens ++ isToken :: (notTokens ++ [nullToken]) ++ rest =
      tokens ++ isToken :: (notTokens ++ nullToken :: rest) := by simp
  rw [comparison, arranged, read, ok_bind]
  simp only [startsWithWord, isWord, if_true, readIs, ok_bind, skips, readNull, pure_eq_ok]

theorem comparison_oneOf
    {inToken : Token}
    {listTokens : List Token}
    {candidates : List Expr}
    (isPrimary : IsPrimary source cost tokens e)
    (isWord : inToken.isWord "in" = true)
    (between : inToken.Follows 4)
    (readsList : Reads (fun budget => parenthesized (sum source budget) budget) cost listTokens
      candidates rest) :
    Reads (comparison source) (cost + 5) (tokens ++ inToken :: listTokens) (.oneOf e candidates)
      rest := by
  intro budget enough
  obtain ⟨budget, rfl⟩ := Nat.exists_eq_add_of_le' (Nat.le_trans (by omega : 2 ≤ cost + 5) enough)
  have read := isPrimary.sum (Follows.head between (listTokens ++ rest)) (budget + 1) (by omega)
  have readList : parenthesized (sum source budget) budget (listTokens ++ rest) =
      .ok (candidates, rest) := readsList budget (by omega)
  have lower := Token.lower_of_isWord isWord
  have notIs : inToken.isWord "is" = false := by simp [Token.isWord, lower]
  have notNot : inToken.isWord "not" = false := by simp [Token.isWord, lower]
  rw [comparison, List.append_assoc, List.cons_append, read, ok_bind]
  simp only [startsWithWord, notIs, notNot, Bool.false_and, Bool.false_eq_true, if_false]
  rw [comparisonTail, if_pos isWord, readList]
  rfl

theorem disjunction_not
    {notToken : Token}
    (isPrimary : IsPrimary source cost tokens e)
    (apart : e.opening? ≠ some "not")
    (isWord : notToken.isWord "not" = true)
    (follows : ∀ token ∈ rest.head?, token.Follows 1) :
    Reads (disjunction source) (cost + 8) (notToken :: tokens) (.not e) rest := by
  have negated : Reads (negation source) (cost + 6) (notToken :: tokens) (.not e) rest := by
    intro budget enough
    obtain ⟨budget, rfl⟩ :=
      Nat.exists_eq_add_of_le' (Nat.le_trans (by omega : 1 ≤ cost + 6) enough)
    have read := isPrimary.negation apart (Follows.mono (by decide) follows) budget (by omega)
    rw [List.cons_append, negation, isWord, Bool.true_or, if_pos rfl, read]
    rfl
  have conjoined := conjunction_of_negation negated (by omega) (Follows.mono (by decide) follows)
  exact disjunction_of_conjunction conjoined (by omega) follows

theorem disjunction_negate
    {minusToken : Token}
    (isPrimary : IsPrimary source cost tokens e)
    (isMinus : minusToken.kind = .minus)
    (follows : ∀ token ∈ rest.head?, token.Follows 1) :
    Reads (disjunction source) (cost + 8) (minusToken :: tokens) (.negate e) rest := by
  have negated : Reads (unary source) (cost + 2) (minusToken :: tokens) (.negate e) rest := by
    intro budget enough
    obtain ⟨budget, rfl⟩ :=
      Nat.exists_eq_add_of_le' (Nat.le_trans (by omega : 1 ≤ cost + 2) enough)
    have read := isPrimary.unary (Follows.mono (by decide) follows) budget (by omega)
    rw [List.cons_append, unary, if_pos isMinus, read]
    rfl
  have multiplied := product_of_unary negated (by omega) (Follows.mono (by decide) follows)
  have summed := sum_of_product multiplied (by omega) (Follows.mono (by decide) follows)
  refine disjunction_of_sum summed (by omega) ?_ ?_ follows
  · rw [isMinus]
    decide
  · simp [Token.isWord, isMinus]

end Grammar

end ObjectQuery
