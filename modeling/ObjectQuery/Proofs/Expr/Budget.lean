import ObjectQuery.Proofs.Expr.Progress

/-!
Contract: what is read does not depend on the budget.

A form that is given one step more reads the same, unless it used up its budget before. Forms do not
use it up from the bound on that their rank gives, so there is one outcome for all budgets from there
on.

Owns:
- `Extends`, and the laws by which rows, chains and clauses pass it on;
- one step more for each form, by induction on the budget.

Does not own: how many steps are enough.
-/

namespace ObjectQuery

namespace Grammar

variable {α β : Type} {tokens : List Token}

/-- The second outcome is the first one, unless the first one used up its budget. -/
def Extends (before after : Except Stop α) : Prop :=
  before ≠ .error .outOfBudget → after = before

namespace Extends

theorem refl (outcome : Except Stop α) : Extends outcome outcome :=
  fun _ => rfl

theorem of_outOfBudget (after : Except Stop α) : Extends (.error .outOfBudget) after :=
  fun settled => absurd rfl settled

theorem bind
    {before after : Except Stop α}
    {next next' : α → Except Stop β}
    (first : Extends before after)
    (second : ∀ value, Extends (next value) (next' value)) :
    Extends (before >>= next) (after >>= next') := by
  cases before with
  | error stop =>
    intro settled
    have same : after = .error stop := first fun equal => settled (by rw [equal]; rfl)
    rw [same]
    rfl
  | ok value =>
    have same : after = .ok value := first (by simp)
    rw [same]
    exact second value

/-- The same step in front. -/
theorem bind_right
    {outcome : Except Stop α}
    {next next' : α → Except Stop β}
    (second : ∀ value, Extends (next value) (next' value)) :
    Extends (outcome >>= next) (outcome >>= next') :=
  (refl outcome).bind second

/-- From a budget that is not used up, more steps change nothing. -/
theorem eq_of_le
    {outcome : Nat → Except Stop α}
    {enough budget : Nat}
    (step : ∀ budget, Extends (outcome budget) (outcome (budget + 1)))
    (settled : outcome enough ≠ .error .outOfBudget)
    (more : enough ≤ budget) :
    outcome budget = outcome enough := by
  induction more with
  | refl => rfl
  | @step budget _ inductionHypothesis =>
    have unchanged : outcome (budget + 1) = outcome budget :=
      step budget (by rw [inductionHypothesis]; exact settled)
    rw [unchanged, inductionHypothesis]

end Extends

/-! ### Rows, chains and clauses -/

section Rows

variable {item item' : List Token → Except Stop (α × List Token)}

theorem commaSeparated_extends
    (each : ∀ tokens, Extends (item tokens) (item' tokens))
    (budget : Nat)
    (tokens : List Token) :
    Extends (commaSeparated item budget tokens) (commaSeparated item' (budget + 1) tokens) := by
  induction budget generalizing tokens with
  | zero => exact .of_outOfBudget _
  | succ budget inductionHypothesis =>
    rw [commaSeparated, commaSeparated]
    refine (each tokens).bind ?_
    rintro ⟨first, rest⟩
    cases rest with
    | nil => exact .refl _
    | cons token after =>
      dsimp only
      split
      · exact (inductionHypothesis after).bind fun _ => .refl _
      · exact .refl _

theorem parenthesized_extends
    (each : ∀ tokens, Extends (item tokens) (item' tokens))
    (budget : Nat)
    (tokens : List Token) :
    Extends (parenthesized item budget tokens) (parenthesized item' (budget + 1) tokens) := by
  refine Extends.bind_right fun (_, rest) => ?_
  dsimp only
  split
  · exact .refl _
  · exact (commaSeparated_extends each budget rest).bind fun _ => .refl _

theorem optional_extends
    (word : String)
    (content : ∀ tokens, Extends (item tokens) (item' tokens))
    (tokens : List Token) :
    Extends (optional word item tokens) (optional word item' tokens) := by
  unfold optional
  split
  · exact (content _).bind fun _ => .refl _
  · exact .refl _

theorem optionalList_extends
    {items items' : List Token → Except Stop (List α × List Token)}
    (word : String)
    (content : ∀ tokens, Extends (items tokens) (items' tokens))
    (tokens : List Token) :
    Extends (optionalList word items tokens) (optionalList word items' tokens) := by
  unfold optionalList
  split
  · exact Extends.bind_right fun (_, rest) => content rest
  · exact .refl _

end Rows

section Operators

variable {operator? : Token → Option (Expr → Expr → Expr)}
variable {operand operand' : List Token → Except Stop (Expr × List Token)}

theorem chain_extends
    (each : ∀ tokens, Extends (operand tokens) (operand' tokens))
    (budget : Nat)
    (left : Expr)
    (tokens : List Token) :
    Extends (chain operator? operand budget left tokens)
      (chain operator? operand' (budget + 1) left tokens) := by
  induction budget generalizing left tokens with
  | zero => exact .of_outOfBudget _
  | succ budget inductionHypothesis =>
    cases tokens with
    | nil => exact .refl _
    | cons token rest =>
      rw [chain, chain]
      split
      · exact .refl _
      · refine (each rest).bind ?_
        rintro ⟨right, rest⟩
        exact inductionHypothesis _ rest

theorem joined_extends
    (each : ∀ tokens, Extends (operand tokens) (operand' tokens))
    (budget : Nat)
    (tokens : List Token) :
    Extends (joined operator? operand budget tokens)
      (joined operator? operand' (budget + 1) tokens) :=
  (each tokens).bind fun (left, rest) => chain_extends each budget left rest

end Operators

/-! ### All forms -/

section Forms

variable {source : List Char}

mutual

theorem disjunction_extends : ∀ budget tokens,
    Extends (disjunction source budget tokens) (disjunction source (budget + 1) tokens)
  | 0, tokens => by
    rw [disjunction]
    exact .of_outOfBudget _
  | budget + 1, tokens => by
    rw [disjunction, disjunction]
    exact joined_extends (conjunction_extends budget) budget tokens

theorem conjunction_extends : ∀ budget tokens,
    Extends (conjunction source budget tokens) (conjunction source (budget + 1) tokens)
  | 0, tokens => by
    rw [conjunction]
    exact .of_outOfBudget _
  | budget + 1, tokens => by
    rw [conjunction, conjunction]
    exact joined_extends (negation_extends budget) budget tokens

theorem negation_extends : ∀ budget tokens,
    Extends (negation source budget tokens) (negation source (budget + 1) tokens)
  | 0, tokens => by
    rw [negation]
    exact .of_outOfBudget _
  | budget + 1, [] => by
    rw [negation, negation]
    exact comparison_extends budget []
  | budget + 1, token :: rest => by
    rw [negation, negation]
    split
    · exact (negation_extends budget rest).bind fun _ => .refl _
    · exact comparison_extends budget (token :: rest)

theorem comparison_extends : ∀ budget tokens,
    Extends (comparison source budget tokens) (comparison source (budget + 1) tokens)
  | 0, tokens => by
    rw [comparison]
    exact .of_outOfBudget _
  | budget + 1, tokens => by
    rw [comparison, comparison]
    refine (sum_extends budget tokens).bind fun (left, rest) => ?_
    dsimp only
    split
    · exact .refl _
    · split
      · exact (comparisonTail_extends budget left rest.tail).bind fun _ => .refl _
      · exact comparisonTail_extends budget left rest

theorem comparisonTail_extends : ∀ budget left tokens,
    Extends (comparisonTail source budget left tokens)
      (comparisonTail source (budget + 1) left tokens)
  | 0, left, tokens => by
    rw [comparisonTail]
    exact .of_outOfBudget _
  | budget + 1, left, [] => by
    rw [comparisonTail, comparisonTail]
    exact .refl _
  | budget + 1, left, token :: rest => by
    rw [comparisonTail, comparisonTail]
    split
    · exact (parenthesized_extends (sum_extends budget) budget rest).bind fun _ => .refl _
    · split
      · exact .refl _
      · exact (sum_extends budget rest).bind fun _ => .refl _

theorem sum_extends : ∀ budget tokens,
    Extends (sum source budget tokens) (sum source (budget + 1) tokens)
  | 0, tokens => by
    rw [sum]
    exact .of_outOfBudget _
  | budget + 1, tokens => by
    rw [sum, sum]
    exact joined_extends (product_extends budget) budget tokens

theorem product_extends : ∀ budget tokens,
    Extends (product source budget tokens) (product source (budget + 1) tokens)
  | 0, tokens => by
    rw [product]
    exact .of_outOfBudget _
  | budget + 1, tokens => by
    rw [product, product]
    exact joined_extends (unary_extends budget) budget tokens

theorem unary_extends : ∀ budget tokens,
    Extends (unary source budget tokens) (unary source (budget + 1) tokens)
  | 0, tokens => by
    rw [unary]
    exact .of_outOfBudget _
  | budget + 1, [] => by
    rw [unary, unary]
    exact primary_extends budget []
  | budget + 1, token :: rest => by
    rw [unary, unary]
    split
    · exact (unary_extends budget rest).bind fun _ => .refl _
    · exact primary_extends budget (token :: rest)

theorem primary_extends : ∀ budget tokens,
    Extends (primary source budget tokens) (primary source (budget + 1) tokens)
  | 0, tokens => by
    rw [primary]
    exact .of_outOfBudget _
  | budget + 1, [] => by
    rw [primary, primary]
    exact .refl _
  | budget + 1, token :: rest => by
    rw [primary, primary]
    split
    · exact .refl _
    · exact .refl _
    · exact .refl _
    · split
      · exact (select_extends budget rest).bind fun _ => .refl _
      · exact (disjunction_extends budget rest).bind fun _ => .refl _
    · exact .refl _
    · exact wordPrimary_extends budget token rest
    · exact .refl _

theorem wordPrimary_extends : ∀ budget token rest,
    Extends (wordPrimary source budget token rest) (wordPrimary source (budget + 1) token rest)
  | 0, token, rest => by
    rw [wordPrimary]
    exact .of_outOfBudget _
  | budget + 1, token, rest => by
    rw [wordPrimary, wordPrimary]
    split
    · exact .refl _
    split
    · exact .refl _
    split
    · exact .refl _
    split
    · exact (nestedQuery_extends budget rest.tail).bind fun _ => .refl _
    split
    · exact .refl _
    split
    · exact .refl _
    split
    · exact (nestedQuery_extends budget (token :: rest)).bind fun _ => .refl _
    split
    · exact (parenthesized_extends (disjunction_extends budget) budget rest).bind fun _ => .refl _
    · exact pathTail_extends budget [] token.text rest

theorem pathTail_extends : ∀ budget owner name tokens,
    Extends (pathTail source budget owner name tokens)
      (pathTail source (budget + 1) owner name tokens)
  | 0, owner, name, tokens => by
    rw [pathTail]
    exact .of_outOfBudget _
  | budget + 1, owner, name, tokens => by
    rw [pathTail, pathTail]
    dsimp only
    split
    · split
      · exact .refl _
      · refine Extends.bind_right fun (segment, rest) => ?_
        dsimp only
        split
        · exact .refl _
        split
        · exact (containsElement_extends budget rest.tail).bind fun _ => .refl _
        split
        · exact .refl _
        · exact pathTail_extends budget (owner ++ [name]) segment.text rest
    · exact .refl _

theorem containsElement_extends : ∀ budget tokens,
    Extends (containsElement source budget tokens) (containsElement source (budget + 1) tokens)
  | 0, tokens => by
    rw [containsElement]
    exact .of_outOfBudget _
  | budget + 1, tokens => by
    rw [containsElement, containsElement]
    exact disjunction_extends budget _

theorem nestedQuery_extends : ∀ budget tokens,
    Extends (nestedQuery source budget tokens) (nestedQuery source (budget + 1) tokens)
  | 0, tokens => by
    rw [nestedQuery]
    exact .of_outOfBudget _
  | budget + 1, tokens => by
    rw [nestedQuery, nestedQuery]
    split
    · exact select_extends budget tokens
    · refine Extends.bind_right fun (className, rest) => ?_
      exact (optional_extends "where" (disjunction_extends budget) rest).bind fun _ => .refl _

theorem select_extends : ∀ budget tokens,
    Extends (select source budget tokens) (select source (budget + 1) tokens)
  | 0, tokens => by
    rw [select]
    exact .of_outOfBudget _
  | budget + 1, tokens => by
    have expression := disjunction_extends budget
    have items := commaSeparated_extends (selectItem_extends budget) budget
    have expressions := commaSeparated_extends expression budget
    have orders := commaSeparated_extends (orderItem_extends budget) budget
    have sources := commaSeparated_extends (fun tokens => .refl (fromItem tokens)) budget
    rw [select, select]
    refine Extends.bind_right fun (_, rest) => ?_
    refine (items _).bind fun (items, rest) => ?_
    refine Extends.bind_right fun (_, rest) => ?_
    refine (sources rest).bind fun (sources, rest) => ?_
    refine (optional_extends "where" expression rest).bind fun (condition, rest) => ?_
    refine (optionalList_extends "group" expressions rest).bind fun (groupBy, rest) => ?_
    refine (optional_extends "having" expression rest).bind fun (having, rest) => ?_
    exact (optionalList_extends "order" orders rest).bind fun _ => .refl _

theorem selectItem_extends : ∀ budget tokens,
    Extends (selectItem source budget tokens) (selectItem source (budget + 1) tokens)
  | 0, tokens => by
    rw [selectItem]
    exact .of_outOfBudget _
  | budget + 1, tokens => by
    rw [selectItem, selectItem]
    exact (disjunction_extends budget tokens).bind fun _ => .refl _

theorem orderItem_extends : ∀ budget tokens,
    Extends (orderItem source budget tokens) (orderItem source (budget + 1) tokens)
  | 0, tokens => by
    rw [orderItem]
    exact .of_outOfBudget _
  | budget + 1, tokens => by
    rw [orderItem, orderItem]
    exact (disjunction_extends budget tokens).bind fun _ => .refl _

end

end Forms

end Grammar

end ObjectQuery
