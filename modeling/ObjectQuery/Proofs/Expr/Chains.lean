import ObjectQuery.Proofs.Expr.Levels
import ObjectQuery.Proofs.Expr.Precedence

/-!
Contract: chains of operands and operators are read as their precedence says.

Each level of operators is read by a loop that joins what it has read with the next operand. It has
joined the whole chain when it stops, and the last operator it joined is the one at which the chain
is split.

Owns:
- `SpellsChain`, the tokens of a chain;
- `ReadsChains`, by which a form reads all chains of its level;
- the loop of a level, and that each form from a product up to a disjunction reads its chains.

Does not own: texts.
-/

namespace ObjectQuery

open Precedence

/-- The join that a token is taken for at a level of operators. -/
def Grammar.operatorAt? (level : Nat) : Token → Option (Expr → Expr → Expr) :=
  match level with
  | 1 => orOperator?
  | 2 => andOperator?
  | 3 => fun token => (comparison? token).map .relational
  | 4 => sumOperator?
  | 5 => productOperator?
  | _ => fun _ => none

/-- The token is read as the operator behind an operand. -/
structure Operator.IsToken (op : Operator) (token : Token) : Prop where
  joins : Grammar.operatorAt? op.level token = some op.join
  binding : token.binding = op.level
  follows : token.Follows (op.level + 1)
  otherWord : token.isWord "is" = false ∧ token.isWord "not" = false ∧ token.isWord "in" = false

namespace Grammar

variable {source : List Char} {tokens rest : List Token} {token : Token}
variable {e : Expr} {links before after : Links} {link : Operator × Expr}
variable {level base cost : Nat}

/-! ### The tokens of a chain -/

/-- The tokens are an operand that stands for the tree and does not begin with `not`. -/
structure IsOperand (source : List Char) (tokens : List Token) (e : Expr) : Prop where
  isPrimary : IsPrimary source 3 tokens e
  apart : e.opening? ≠ some "not"

/-- The tokens are operands with operators between them. -/
inductive SpellsChain (source : List Char) : List Token → Expr → Links → Prop where
  | operand {tokens : List Token} {e : Expr}
      (isOperand : IsOperand source tokens e) : SpellsChain source tokens e []
  | link {tokens behind : List Token} {e operand : Expr} {token : Token} {op : Operator}
      {links : Links}
      (isOperand : IsOperand source tokens e)
      (isToken : op.IsToken token)
      (spells : SpellsChain source behind operand links) :
      SpellsChain source (tokens ++ token :: behind) e ((op, operand) :: links)

namespace SpellsChain

/-- Each operator stands between two chains. -/
theorem split (spells : SpellsChain source tokens e (before ++ link :: after)) :
    ∃ front token behind, tokens = front ++ token :: behind ∧ SpellsChain source front e before ∧
      link.1.IsToken token ∧ SpellsChain source behind link.2 after := by
  induction before generalizing tokens e with
  | nil =>
    cases spells with
    | link isOperand isToken spells =>
      exact ⟨_, _, _, rfl, .operand isOperand, isToken, spells⟩
  | cons head before inductionHypothesis =>
    cases spells with
    | link isOperand isToken spells =>
      obtain ⟨front, token, behind, rfl, isFront, isLink, isBehind⟩ := inductionHypothesis spells
      refine ⟨_, token, behind, ?_, .link isOperand isToken isFront, isLink, isBehind⟩
      rw [List.append_assoc, List.cons_append]

theorem opens (spells : SpellsChain source tokens e links) :
    ∃ first others, tokens = first :: others ∧ first.kind ≠ .bang ∧ first.isWord "not" = false := by
  have begins {tokens : List Token} {e : Expr} (isOperand : IsOperand source tokens e) :
      ∃ first others, tokens = first :: others ∧ first.kind ≠ .bang ∧
        first.isWord "not" = false := by
    obtain ⟨first, others, equal, opens⟩ := isOperand.isPrimary.opens
    exact ⟨first, others, equal, opens.noBang, opens.isWord_eq_false (by decide) isOperand.apart⟩
  cases spells with
  | operand isOperand => exact begins isOperand
  | link isOperand _ _ =>
    obtain ⟨first, others, rfl, begins⟩ := begins isOperand
    exact ⟨first, _, rfl, begins⟩

theorem length_le (spells : SpellsChain source tokens e links) : links.length ≤ tokens.length := by
  induction spells with
  | operand isOperand => exact Nat.zero_le _
  | link isOperand isToken spells inductionHypothesis =>
    rw [List.length_append, List.length_cons, List.length_cons]
    omega

end SpellsChain

/-! ### What may follow a chain -/

/-- The token may follow a chain of the level: one that binds more loosely, or one more comparison
while there is one that nothing has ended. -/
def MayFollow (level : Nat) (links : Links) (token : Token) : Prop :=
  token.Follows level ∨ token.Follows 4 ∧ token.binding = 3 ∧ Pending links

theorem MayFollow.binding_ne (mayFollow : MayFollow level links token) (noComparison : level ≠ 3) :
    token.binding ≠ level := by
  rcases mayFollow with follows | ⟨-, isComparison, -⟩
  · exact Nat.ne_of_lt follows.1
  · rw [isComparison]
    exact Ne.symm noComparison

/-- In a chain without comparisons none is pending. -/
theorem MayFollow.follows
    (mayFollow : MayFollow level links token)
    (noComparison : ∀ link ∈ links, link.1.level ≠ 3) :
    token.Follows level := by
  rcases mayFollow with follows | ⟨-, -, before, link, between, rfl, isComparison, -⟩
  · exact follows
  · exact absurd isComparison (noComparison link (by simp))

/-- A comparison may follow a sum. -/
theorem MayFollow.follows_sum
    (mayFollow : MayFollow level links token)
    (ordered : level ≤ 4) :
    token.Follows 4 := by
  rcases mayFollow with follows | ⟨follows, -, -⟩
  · exact follows.mono ordered
  · exact follows

theorem MayFollow.mono
    {higher : Nat}
    (mayFollow : MayFollow level links token)
    (ordered : level ≤ higher) :
    MayFollow higher links token :=
  mayFollow.imp_left (·.mono ordered)

/-- What follows a chain follows its part behind the operator at which it is split. -/
theorem MayFollow.of_append
    {higher : Nat}
    (mayFollow : MayFollow higher (before ++ link :: after) token)
    (here : link.1.level = level)
    (loosest : ∀ other ∈ before, level ≤ other.1.level)
    (noComparison : level ≠ 3) :
    MayFollow higher after token := by
  rcases mayFollow with follows | ⟨follows, isComparison, pending⟩
  · exact .inl follows
  · exact .inr ⟨follows, isComparison, pending.of_append here loosest noComparison⟩

/-! ### Reading chains -/

/-- The form reads the chains whose operators are of the level or tighter. -/
def ReadsChains
    (source : List Char)
    (form : Nat → List Token → Except Stop (Expr × List Token))
    (level base : Nat) : Prop :=
  ∀ tokens e links rest, SpellsChain source tokens e links →
    (∀ link ∈ links, level ≤ link.1.level) → Apart links →
    (∀ token ∈ rest.head?, MayFollow level links token) →
    Reads form (base + links.length) tokens (tree e links) rest

theorem operatorAt?_eq_none (noComparison : level ≠ 3) (other : token.binding ≠ level) :
    operatorAt? level token = none := by
  unfold operatorAt?
  split
  · exact orOperator?_eq_none other
  · exact andOperator?_eq_none other
  · exact absurd rfl noComparison
  · exact sumOperator?_eq_none other
  · exact productOperator?_eq_none other
  · rfl

theorem chain_joins
    {operator? : Token → Option (Expr → Expr → Expr)}
    {operand : List Token → Except Stop (Expr × List Token)}
    {join : Expr → Expr → Expr}
    {left right : Expr}
    {behind : List Token}
    {budget : Nat}
    (joins : operator? token = some join)
    (read : operand behind = .ok (right, rest)) :
    chain operator? operand (budget + 1) left (token :: behind) =
      chain operator? operand budget (join left right) rest := by
  simp only [chain, joins, read, ok_bind]

/-- The loop of a level has joined all of a chain after as many rounds as the chain has operators of
the level. -/
theorem joined_eq_chain
    {operand : Nat → List Token → Except Stop (Expr × List Token)}
    {allowance : Nat}
    (reads : ReadsChains source operand (level + 1) base)
    (noComparison : level ≠ 3)
    (spells : SpellsChain source tokens e links)
    (tight : ∀ link ∈ links, level ≤ link.1.level)
    (apart : Apart links)
    (mayFollow : ∀ token ∈ rest.head?, MayFollow (level + 1) links token)
    (enough : base + links.length ≤ allowance) :
    ∃ rounds ≤ links.length, ∀ budget,
      joined (operatorAt? level) (operand allowance) (budget + rounds) (tokens ++ rest) =
        chain (operatorAt? level) (operand allowance) budget (tree e links) rest := by
  induction count : links.length using Nat.strong_induction_on generalizing tokens e links rest with
  | _ count inductionHypothesis
  subst count
  rcases tighter_or_split tight with tighter | ⟨before, link, after, rfl, here, loosest, last⟩
  · refine ⟨0, Nat.zero_le _, fun budget => ?_⟩
    rw [joined, reads tokens e links rest spells tighter apart mayFollow allowance enough]
    rfl
  · obtain ⟨front, token, behind, rfl, isFront, isToken, isBehind⟩ := spells.split
    obtain ⟨joins, -, follows, -⟩ := isToken
    rw [here] at joins follows
    rw [List.length_append, List.length_cons] at enough
    have mayFollowFront :
        ∀ other ∈ (token :: (behind ++ rest)).head?, MayFollow (level + 1) before other := by
      simpa using .inl follows
    obtain ⟨rounds, few, gathers⟩ := inductionHypothesis before.length (by simp) isFront loosest
      apart.left mayFollowFront (by omega) rfl
    have mayFollowBehind (token : Token) (head : token ∈ rest.head?) :
        MayFollow (level + 1) after token :=
      (mayFollow token head).of_append here loosest noComparison
    have readBehind := reads behind link.2 after rest isBehind last apart.behind mayFollowBehind
      allowance (by omega)
    refine ⟨rounds + 1, by simp; omega, fun budget => ?_⟩
    rw [tree_append here loosest last, List.append_assoc, List.cons_append, ← Nat.add_assoc,
      Nat.add_right_comm, gathers]
    exact chain_joins joins readBehind

/-- A form that is the loop of a level reads the chains of the level, if the operands that it joins
are the chains of the tighter levels. -/
theorem readsChains_joined
    {form operand : Nat → List Token → Except Stop (Expr × List Token)}
    (step : ∀ budget tokens,
      form (budget + 1) tokens = joined (operatorAt? level) (operand budget) budget tokens)
    (reads : ReadsChains source operand (level + 1) base)
    (noComparison : level ≠ 3)
    (positive : 0 < base) :
    ReadsChains source form level (base + 1) := by
  intro tokens e links rest spells tight apart mayFollow budget enough
  obtain ⟨budget, rfl⟩ := Nat.exists_eq_add_of_le' (Nat.le_trans (by omega : 1 ≤ _) enough)
  obtain ⟨rounds, few, gathers⟩ := joined_eq_chain reads noComparison spells tight apart
    (fun token head => (mayFollow token head).mono (Nat.le_succ level))
    (by omega : base + links.length ≤ budget)
  obtain ⟨left, isBudget⟩ : ∃ left, budget = left + 1 + rounds := ⟨budget - rounds - 1, by omega⟩
  have gathered := gathers (left + 1)
  rw [← isBudget] at gathered
  rw [step, gathered]
  exact chain_stops fun token head =>
    operatorAt?_eq_none noComparison ((mayFollow token head).binding_ne noComparison)

/-! ### The levels -/

theorem readsChains_unary : ReadsChains source (unary source) 6 4 := by
  intro tokens e links rest spells tight apart mayFollow
  cases spells with
  | operand isOperand =>
    rw [tree_nil]
    exact isOperand.isPrimary.unary fun token head => (mayFollow token head).follows nofun
  | @link _ _ _ _ _ op _ _ _ _ =>
    have tooTight : 6 ≤ op.level := tight _ List.mem_cons_self
    exact absurd op.level_le_five (Nat.not_le_of_lt tooTight)

theorem readsChains_product : ReadsChains source (product source) 5 5 := by
  refine readsChains_joined (fun budget tokens => ?_) readsChains_unary (by decide) (by decide)
  rw [product]
  rfl

theorem readsChains_sum : ReadsChains source (sum source) 4 6 := by
  refine readsChains_joined (fun budget tokens => ?_) readsChains_product (by decide) (by decide)
  rw [sum]
  rfl

theorem comparison_of_sums
    {op : RelationalOp}
    {left right : Expr}
    {behind : List Token}
    {budget : Nat}
    (readLeft : sum source (budget + 1) tokens = .ok (left, token :: behind))
    (compares : comparison? token = some op)
    (otherWord : token.isWord "is" = false ∧ token.isWord "not" = false ∧
      token.isWord "in" = false)
    (readRight : sum source budget behind = .ok (right, rest)) :
    comparison source (budget + 2) tokens = .ok (.relational op left right, rest) := by
  obtain ⟨notIs, notNot, notIn⟩ := otherWord
  rw [comparison, readLeft, ok_bind]
  simp only [startsWithWord, notIs, notNot, Bool.false_and, Bool.false_eq_true, if_false]
  rw [comparisonTail, notIn, compares]
  simp only [Bool.false_eq_true, if_false, readRight, ok_bind, pure_eq_ok]

/-- A chain without junctions is a sum, or two sums that are compared. -/
theorem readsChains_comparison : ReadsChains source (comparison source) 3 7 := by
  intro tokens e links rest spells tight apart mayFollow
  rcases tighter_or_split tight with tighter | ⟨before, link, after, rfl, here, loosest, -⟩
  · have noComparison (link : Operator × Expr) (member : link ∈ links) : link.1.level ≠ 3 :=
      Nat.ne_of_gt (tighter link member)
    have follows (token : Token) (head : token ∈ rest.head?) : token.Follows 3 :=
      (mayFollow token head).follows noComparison
    have read := readsChains_sum tokens e links rest spells tighter apart fun token head =>
      (mayFollow token head).mono (by decide)
    rw [show 7 + links.length = 6 + links.length + 1 by omega]
    exact comparison_of_sum read (by omega) follows
  · obtain ⟨front, token, behind, rfl, isFront, isToken, isBehind⟩ := spells.split
    obtain ⟨tightBefore, tightAfter⟩ := apart.tight here tight
    obtain ⟨joins, -, between, otherWord⟩ := isToken
    rw [here] at joins between
    obtain ⟨op, compares, isJoin⟩ :
        ∃ op, comparison? token = some op ∧ Expr.relational op = link.1.join :=
      Option.map_eq_some_iff.mp joins
    intro budget enough
    rw [List.length_append, List.length_cons] at enough
    obtain ⟨budget, rfl⟩ := Nat.exists_eq_add_of_le' (Nat.le_trans (by omega : 2 ≤ _) enough)
    have readFront := readsChains_sum front e before (token :: (behind ++ rest)) isFront tightBefore
      apart.left (by simpa using .inl between) (budget + 1) (by omega)
    have readBehind := readsChains_sum behind link.2 after rest isBehind tightAfter apart.behind
      (fun token head => .inl ((mayFollow token head).follows_sum (by decide))) budget (by omega)
    rw [tree_append here loosest tightAfter, ← isJoin, List.append_assoc, List.cons_append]
    exact comparison_of_sums readFront compares otherWord readBehind

theorem readsChains_negation : ReadsChains source (negation source) 3 8 := by
  intro tokens e links rest spells tight apart mayFollow
  have read := readsChains_comparison tokens e links rest spells tight apart mayFollow
  obtain ⟨first, others, rfl, noBang, noNot⟩ := spells.opens
  rw [show 8 + links.length = 7 + links.length + 1 by omega]
  exact negation_of_comparison read noBang noNot

theorem readsChains_conjunction : ReadsChains source (conjunction source) 2 9 := by
  refine readsChains_joined (fun budget tokens => ?_) readsChains_negation (by decide) (by decide)
  rw [conjunction]
  rfl

/-- Every chain with its comparisons apart is read as its tree. -/
theorem readsChains_disjunction : ReadsChains source (disjunction source) 1 10 := by
  refine readsChains_joined (fun budget tokens => ?_) readsChains_conjunction (by decide)
    (by decide)
  rw [disjunction]
  rfl

end Grammar

end ObjectQuery
