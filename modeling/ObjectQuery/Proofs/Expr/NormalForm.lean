import ObjectQuery.Expr.Simplify
import ObjectQuery.Proofs.Expr.Parts

/-!
Contract: simplification ends in a normal form.

A tree is simplified once, from the leaves to the root. The rule of a node leaves it as it is, or
gives a constant or one of the operands, and these are done with; so no rule makes work for a node
that has been passed.

Owns:
- `Expr.isRedex`, a node that its rule changes;
- `Expr.simplify_eq_node`, which takes simplification apart: the parts of a node, then its rule;
- `Expr.everywhere_simplify_of`, by which simplified trees are known to have a property everywhere;
- normal forms are reached, and they are what simplification leaves alone.

Does not own: values.
-/

namespace ObjectQuery

namespace Expr

/-- The node is true or false. -/
def isTruthLiteral : Expr → Bool
  | boolean _ => true
  | _ => false

/-- Both nodes are constants, and an operation has a result for their values. -/
def computes {α : Type} (operation : Value → Value → Except Error α) (left right : Expr) : Bool :=
  match left.constant?, right.constant? with
  | some a, some b => (operation a b).isOk
  | _, _ => false

/-- All nodes are constants, and the search for the first one among the others has an answer. -/
def answers (operand : Expr) (candidates : List Expr) : Bool :=
  match operand.constant?, candidates.mapM constant? with
  | some v, some values => (Fold.among? v values).isSome
  | _, _ => false

/-- The rule for the kind of the node applies to it as it stands. -/
def isRedex : Expr → Bool
  | and left right | or left right => left.isTruthLiteral || right.isTruthLiteral
  | not operand => operand.isTruthLiteral
  | binary op left right =>
    left.isNullLiteral || right.isNullLiteral || computes (Value.arithmetic op) left right
  | negate (literal v) => (v.isNull || v.isNumeric) && v.negate.isOk
  | relational op left right => computes (Value.compare op) left right
  | oneOf operand candidates => candidates.isEmpty || answers operand candidates
  | _ => false

/-- The node with its parts simplified. -/
def simplifyParts : Expr → Expr
  | binary op left right => binary op left.simplify right.simplify
  | negate operand => negate operand.simplify
  | call function arguments => call function (arguments.map simplify)
  | query q => query q.simplify
  | and left right => and left.simplify right.simplify
  | or left right => or left.simplify right.simplify
  | not operand => not operand.simplify
  | relational op left right => relational op left.simplify right.simplify
  | oneOf operand candidates => oneOf operand.simplify (candidates.map simplify)
  | nullTest operand negated => nullTest operand.simplify negated
  | nonempty q => nonempty q.simplify
  | contains owner collection element => contains owner collection element.simplify
  | e => e

end Expr

/-- The rule for the kind of a node. -/
def Fold.node : Expr → Expr
  | .binary op left right => binary op left right
  | .negate operand => negate operand
  | .and left right => and left right
  | .or left right => or left right
  | .not operand => not operand
  | .relational op left right => relational op left right
  | .oneOf operand candidates =>
    if candidates.isEmpty then .boolean false else oneOf operand candidates
  | e => e

/-! ## Rules -/

namespace Expr

variable {e left right : Expr}

theorem isTruthLiteral_eq_false
    (notFalse : e ≠ boolean false)
    (notTrue : e ≠ boolean true) :
    e.isTruthLiteral = false := by
  cases e with
  | boolean b =>
    cases b with
    | false => exact absurd rfl notFalse
    | true => exact absurd rfl notTrue
  | _ => rfl

variable {α : Type} {operation : Value → Value → Except Error α}

theorem computes_of_constants
    {a b : Value}
    (isLeft : left.constant? = some a)
    (isRight : right.constant? = some b) :
    computes operation left right = (operation a b).isOk := by
  rw [computes, isLeft, isRight]

theorem computes_eq_false
    (notBoth : ∀ a b, left.constant? = some a → right.constant? = some b → False) :
    computes operation left right = false := by
  unfold computes
  split
  · next isLeft isRight => exact (notBoth _ _ isLeft isRight).elim
  · rfl

end Expr

namespace Fold

/-- A rule leaves the node as it is where it does not apply, and otherwise gives a constant or one
of the operands. -/
structure Follows (e result : Expr) : Prop where
  kept : e.isRedex = false → result = e
  replaced : e.isRedex = true → result.isConstant = true ∨ result ∈ e.parts

theorem isConstant_ofValue (v : Value) : (Expr.ofValue v).isConstant = true := by
  cases v <;> rfl

theorem isConstant_ofTruth (truth : Truth) : (ofTruth truth).isConstant = true := by
  cases truth <;> rfl

variable {e result : Expr}

theorem Follows.of_kept (irreducible : e.isRedex = false) : Follows e e :=
  ⟨fun _ => rfl, fun redex => absurd redex (Bool.eq_false_iff.mp irreducible)⟩

theorem Follows.of_constant (redex : e.isRedex = true) (constant : result.isConstant = true) :
    Follows e result :=
  ⟨fun irreducible => absurd redex (Bool.eq_false_iff.mp irreducible), fun _ => .inl constant⟩

theorem Follows.of_part (redex : e.isRedex = true) (part : result ∈ e.parts) : Follows e result :=
  ⟨fun irreducible => absurd redex (Bool.eq_false_iff.mp irreducible), fun _ => .inr part⟩

variable {left right operand : Expr} {candidates : List Expr}

theorem follows_binary (op : ArithmeticOp) :
    Follows (.binary op left right) (binary op left right) := by
  unfold binary
  by_cases absorbed : (left.isNullLiteral || right.isNullLiteral) = true
  · rw [if_pos absorbed]
    exact .of_constant (by simp only [Expr.isRedex, absorbed, Bool.true_or]) rfl
  · have redex : (Expr.binary op left right).isRedex =
        Expr.computes (Value.arithmetic op) left right := by
      simp only [Expr.isRedex, Bool.eq_false_iff.mpr absorbed, Bool.false_or]
    rw [if_neg absorbed]
    split
    · next isLeft isRight =>
      rw [Expr.computes_of_constants isLeft isRight] at redex
      split
      · next computed =>
        rw [computed] at redex
        exact .of_constant redex (isConstant_ofValue _)
      · next failed =>
        rw [failed] at redex
        exact .of_kept redex
    · next notBoth => exact .of_kept (redex.trans (Expr.computes_eq_false notBoth))

theorem follows_relational (op : RelationalOp) :
    Follows (.relational op left right) (relational op left right) := by
  have redex : (Expr.relational op left right).isRedex =
      Expr.computes (Value.compare op) left right := rfl
  unfold relational
  split
  · next isLeft isRight =>
    rw [Expr.computes_of_constants isLeft isRight] at redex
    split
    · next compared =>
      rw [compared] at redex
      exact .of_constant redex (isConstant_ofTruth _)
    · next failed =>
      rw [failed] at redex
      exact .of_kept redex
  · next notBoth => exact .of_kept (redex.trans (Expr.computes_eq_false notBoth))

theorem follows_negate : Follows (.negate operand) (negate operand) := by
  unfold negate
  split
  · next v =>
    by_cases number : (v.isNull || v.isNumeric) = true
    · rw [if_pos number]
      split
      · next w negated =>
        apply Follows.of_constant _ rfl
        rw [Expr.isRedex, number, negated]
        rfl
      · next failed =>
        apply Follows.of_kept
        rw [Expr.isRedex, number, failed]
        rfl
    · rw [if_neg number]
      apply Follows.of_kept
      rw [Expr.isRedex, Bool.eq_false_iff.mpr number, Bool.false_and]
  · next noLiteral =>
    apply Follows.of_kept
    cases operand with
    | literal v => exact absurd rfl (noLiteral v)
    | _ => rfl

theorem follows_and : Follows (.and left right) (and left right) := by
  unfold and
  split
  · exact .of_constant rfl rfl
  · exact .of_constant (Bool.or_true _) rfl
  · exact .of_part rfl (List.mem_cons_of_mem _ List.mem_cons_self)
  · exact .of_part (Bool.or_true _) List.mem_cons_self
  · next leftFalse leftTrue rightFalse rightTrue =>
    apply Follows.of_kept
    rw [Expr.isRedex, Expr.isTruthLiteral_eq_false leftFalse leftTrue,
      Expr.isTruthLiteral_eq_false rightFalse rightTrue]
    rfl

theorem follows_or : Follows (.or left right) (or left right) := by
  unfold or
  split
  · exact .of_constant rfl rfl
  · exact .of_constant (Bool.or_true _) rfl
  · exact .of_part rfl (List.mem_cons_of_mem _ List.mem_cons_self)
  · exact .of_part (Bool.or_true _) List.mem_cons_self
  · next leftTrue leftFalse rightTrue rightFalse =>
    apply Follows.of_kept
    rw [Expr.isRedex, Expr.isTruthLiteral_eq_false leftFalse leftTrue,
      Expr.isTruthLiteral_eq_false rightFalse rightTrue]
    rfl

theorem follows_not : Follows (.not operand) (not operand) := by
  unfold not
  split
  · exact .of_constant rfl rfl
  · next noTruth =>
    apply Follows.of_kept
    cases operand with
    | boolean b => exact absurd rfl (noTruth b)
    | _ => rfl

theorem follows_oneOf (candidatesGiven : candidates.isEmpty = false) :
    Follows (.oneOf operand candidates) (oneOf operand candidates) := by
  have redex : (Expr.oneOf operand candidates).isRedex = Expr.answers operand candidates := by
    rw [Expr.isRedex, candidatesGiven, Bool.false_or]
  unfold oneOf
  split
  · next v values isValue areValues =>
    simp only [Expr.answers, isValue, areValues] at redex
    split
    · next truth answered =>
      rw [answered] at redex
      exact .of_constant redex (isConstant_ofTruth truth)
    · next unanswered =>
      rw [unanswered] at redex
      exact .of_kept redex
  · next notAll =>
    apply Follows.of_kept
    rw [redex, Expr.answers]
    split
    · next isValue areValues => exact absurd areValues (notAll _ _ isValue)
    · rfl

/-- Each kind of node has its rule, or is left alone. -/
theorem follows_node (e : Expr) : Follows e (node e) := by
  cases e with
  | binary op left right => exact follows_binary op
  | negate operand => exact follows_negate
  | and left right => exact follows_and
  | or left right => exact follows_or
  | not operand => exact follows_not
  | relational op left right => exact follows_relational op
  | oneOf operand candidates =>
    rw [node]
    by_cases noCandidates : candidates.isEmpty = true
    · rw [if_pos noCandidates]
      exact .of_constant (by rw [Expr.isRedex, noCandidates, Bool.true_or]) rfl
    · rw [if_neg noCandidates]
      exact follows_oneOf (Bool.eq_false_iff.mpr noCandidates)
  | _ => exact .of_kept rfl

end Fold

/-! ## Parts -/

theorem Expr.simplifyEach_eq_map (es : List Expr) : Expr.simplifyEach es = es.map simplify := by
  induction es with
  | nil => rfl
  | cons e rest inductionHypothesis => rw [simplifyEach, inductionHypothesis, List.map_cons]

theorem Expr.simplifyOption_eq_map (e : Option Expr) :
    Expr.simplifyOption e = e.map simplify := by
  cases e <;> rfl

theorem SelectItem.simplifyEach_eq_map (items : List SelectItem) :
    SelectItem.simplifyEach items =
      items.map fun item => ⟨item.expression.simplify, item.label⟩ := by
  induction items with
  | nil => rfl
  | cons item rest inductionHypothesis =>
    obtain ⟨expression, _⟩ := item
    rw [simplifyEach, inductionHypothesis, List.map_cons]

theorem OrderItem.simplifyEach_eq_map (items : List OrderItem) :
    OrderItem.simplifyEach items =
      items.map fun item => ⟨item.expression.simplify, item.ascending⟩ := by
  induction items with
  | nil => rfl
  | cons item rest inductionHypothesis =>
    obtain ⟨expression, _⟩ := item
    rw [simplifyEach, inductionHypothesis, List.map_cons]

theorem Query.clauses_simplify (q : Query) :
    q.simplify.clauses = q.clauses.map Expr.simplify := by
  obtain ⟨distinct, select, sources, condition, groupBy, having, orderBy⟩ := q
  simp [simplify, clauses, Expr.simplifyEach_eq_map, Expr.simplifyOption_eq_map,
    SelectItem.simplifyEach_eq_map, OrderItem.simplifyEach_eq_map, Function.comp_def,
    Option.toList_map]

theorem map_eq_self {α : Type} {change : α → α} {l : List α}
    (fixed : ∀ element ∈ l, change element = element) : l.map change = l :=
  (List.map_congr_left fixed).trans l.map_id

/-- A query whose clauses are not changed is not changed. -/
theorem Query.simplify_eq_self {q : Query} (fixed : ∀ e ∈ q.clauses, e.simplify = e) :
    q.simplify = q := by
  obtain ⟨distinct, select, sources, condition, groupBy, having, orderBy⟩ := q
  simp only [clauses, List.forall_mem_append, List.forall_mem_map] at fixed
  obtain ⟨⟨⟨⟨ofSelect, ofCondition⟩, ofGroups⟩, ofHaving⟩, ofOrder⟩ := fixed
  have option {e : Option Expr} (ofPart : ∀ part ∈ e.toList, part.simplify = part) :
      e.map Expr.simplify = e := by
    cases e with
    | none => rfl
    | some e => exact congrArg some (ofPart e List.mem_cons_self)
  have items : select.map (fun item => ⟨item.expression.simplify, item.label⟩) = select := by
    apply map_eq_self
    rintro ⟨expression, label⟩ member
    exact congrArg (SelectItem.mk · label) (ofSelect _ member)
  have keys : orderBy.map (fun item => ⟨item.expression.simplify, item.ascending⟩) = orderBy := by
    apply map_eq_self
    rintro ⟨expression, ascending⟩ member
    exact congrArg (OrderItem.mk · ascending) (ofOrder _ member)
  rw [simplify, SelectItem.simplifyEach_eq_map, Expr.simplifyOption_eq_map,
    Expr.simplifyEach_eq_map, Expr.simplifyOption_eq_map, OrderItem.simplifyEach_eq_map,
    items, option ofCondition, map_eq_self ofGroups, option ofHaving, keys]

namespace Expr

/-- Simplification goes through the parts of a node, and then the node has its rule. -/
theorem simplify_eq_node (e : Expr) : e.simplify = Fold.node e.simplifyParts := by
  cases e with
  | call function arguments =>
    rw [simplify, simplifyEach_eq_map]
    rfl
  | oneOf operand candidates =>
    cases candidates with
    | nil => rfl
    | cons first rest =>
      rw [simplify, simplifyEach_eq_map]
      rfl
  | _ => rfl

theorem parts_simplifyParts (e : Expr) : e.simplifyParts.parts = e.parts.map simplify := by
  cases e with
  | call function arguments => simp only [simplifyParts, parts_call]
  | oneOf operand candidates => simp only [simplifyParts, parts_oneOf, List.map_cons]
  | contains owner collection element =>
    simp only [simplifyParts, parts_contains, List.map_cons, List.map_nil]
  | query q | nonempty q => exact q.clauses_simplify
  | _ => rfl

theorem simplifyParts_eq_self {e : Expr} (fixed : ∀ part ∈ e.parts, part.simplify = part) :
    e.simplifyParts = e := by
  cases e with
  | literal _ | parameter _ _ | path _ | raw _ | boolean _ | count _ _ | asterisk _ | classTag _ =>
    rfl
  | binary op left right | and left right | or left right | relational op left right =>
    obtain ⟨ofLeft, ofRight⟩ := List.forall_mem_cons.mp fixed
    rw [simplifyParts, ofLeft, List.forall_mem_singleton.mp ofRight]
  | negate operand | not operand | nullTest operand negated =>
    rw [simplifyParts, List.forall_mem_singleton.mp fixed]
  | contains owner collection element =>
    rw [parts_contains] at fixed
    rw [simplifyParts, List.forall_mem_singleton.mp fixed]
  | call function arguments =>
    rw [parts_call] at fixed
    rw [simplifyParts, map_eq_self fixed]
  | oneOf operand candidates =>
    obtain ⟨ofOperand, ofCandidates⟩ := List.forall_mem_cons.mp (parts_oneOf ▸ fixed)
    rw [simplifyParts, ofOperand, map_eq_self ofCandidates]
  | query q | nonempty q => rw [simplifyParts, Query.simplify_eq_self fixed]

end Expr

/-! ## Trees -/

namespace Expr

theorem parts_of_isConstant {e : Expr} (constant : e.isConstant = true) : e.parts = [] := by
  cases e with
  | literal _ | boolean _ => rfl
  | _ => cases constant

theorem isRedex_of_isConstant {e : Expr} (constant : e.isConstant = true) : e.isRedex = false := by
  cases e with
  | literal _ | boolean _ => rfl
  | _ => cases constant

/-- What holds of constants, and of each node that has no rule to follow once its parts are
simplified, holds everywhere in a simplified tree. -/
theorem everywhere_simplify_of
    {given holds : Expr → Prop}
    (constants : ∀ e, e.isConstant = true → holds e)
    (nodes : ∀ e, given e → e.simplifyParts.isRedex = false → holds e.simplifyParts)
    {e : Expr}
    (everywhere : e.Everywhere given) :
    e.simplify.Everywhere holds := by
  induction e using parts_induction with
  | step e each =>
    obtain ⟨here, ofParts⟩ := everywhere_iff.mp everywhere
    have simplified : ∀ part ∈ e.simplifyParts.parts, part.Everywhere holds := by
      rw [parts_simplifyParts]
      exact List.forall_mem_map.mpr fun part member => each part member (ofParts part member)
    have follows := Fold.follows_node e.simplifyParts
    rw [simplify_eq_node]
    by_cases redex : e.simplifyParts.isRedex = true
    · rcases follows.replaced redex with constant | part
      · exact everywhere_of_leaf (constants _ constant) (parts_of_isConstant constant)
      · exact simplified _ part
    · have irreducible := Bool.eq_false_iff.mpr redex
      rw [follows.kept irreducible]
      exact everywhere_iff.mpr ⟨nodes e here irreducible, simplified⟩

theorem everywhere_irreducible_simplify (e : Expr) :
    e.simplify.Everywhere (·.isRedex = false) :=
  everywhere_simplify_of (fun _ => isRedex_of_isConstant) (fun _ _ irreducible => irreducible)
    fun _ _ => trivial

theorem simplify_eq_self {e : Expr} (normal : e.Everywhere (·.isRedex = false)) :
    e.simplify = e := by
  induction e using parts_induction with
  | step e each =>
    obtain ⟨irreducible, ofParts⟩ := everywhere_iff.mp normal
    have fixed := simplifyParts_eq_self fun part member => each part member (ofParts part member)
    rw [simplify_eq_node, fixed, (Fold.follows_node e).kept irreducible]

theorem simplify_eq_self_iff {e : Expr} :
    e.simplify = e ↔ e.Everywhere (·.isRedex = false) := by
  constructor
  · intro fixed
    rw [← fixed]
    exact e.everywhere_irreducible_simplify
  · exact simplify_eq_self

end Expr

/-- A simplified expression or query is in normal form: no rule applies to a node of it, at any
depth. It is not changed when it is simplified again, and what is not changed is in normal form. -/
theorem simplify_normalizes :
    (∀ e : Expr, e.simplify.Everywhere (·.isRedex = false) ∧
      e.simplify.simplify = e.simplify ∧
      (e.simplify = e ↔ e.Everywhere (·.isRedex = false))) ∧
    ∀ q : Query, (Expr.query q.simplify).Everywhere (·.isRedex = false) ∧
      q.simplify.simplify = q.simplify ∧
      (q.simplify = q ↔ (Expr.query q).Everywhere (·.isRedex = false)) := by
  have ofExpr (e : Expr) : e.simplify.Everywhere (·.isRedex = false) ∧
      e.simplify.simplify = e.simplify ∧
      (e.simplify = e ↔ e.Everywhere (·.isRedex = false)) :=
    ⟨e.everywhere_irreducible_simplify, Expr.simplify_eq_self e.everywhere_irreducible_simplify,
      Expr.simplify_eq_self_iff⟩
  refine ⟨ofExpr, fun q => ?_⟩
  obtain ⟨normal, again, fixed⟩ := ofExpr (.query q)
  refine ⟨normal, Expr.query.inj again, ?_⟩
  rw [← fixed, Expr.simplify, Expr.query.injEq]

end ObjectQuery
