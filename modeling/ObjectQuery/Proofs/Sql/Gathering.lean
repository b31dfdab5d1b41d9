import ObjectQuery.Proofs.Sql.Leaves
import ObjectQuery.Proofs.Sql.Materials
import ObjectQuery.Proofs.Sql.Openings
import ObjectQuery.Proofs.Sql.Positions

/-!
Contract: what a query says without a name stands in its statement, in the same order.

Numbers, booleans, dates, parameters and raw texts are atoms. The clauses of a query are translated
one after the other and put together around a from list, the value that a collection is searched for
becomes one of several conditions, and a comparison with null loses an operand. All this keeps the
atoms where they are, each in the form that its position asks for. Strings and nulls are no atoms,
since the mark for the class of an object becomes some as well.

Owns:
- `Gathering`, what is gathered from the atoms of a statement from left to right;
- `Carries`, that translation leads to what an expression says, form by form;
- `gathered_of_toSelect`, for what is gathered from the expressions in a query.

Does not own: which atoms are looked at.
-/

namespace ObjectQuery

open Sql

/-- The role in which the translation takes a position. -/
def Position.role : Position → Role
  | .value => .value
  | .nullTested => .plain
  | .condition => .condition

/-- The term that an expression becomes by itself where no name is looked up for it. -/
def Expr.ownTerm? (position : Position) : Expr → Option Term
  | .literal value => some (.literal value)
  | .parameter index _ => some (.parameter index)
  | .raw source => some (.raw source)
  | .boolean value => some (position.role.boolean value)
  | .oneOf _ [] => some (.truth false)
  | _ => none

namespace Sql

/-- The term is an atom. -/
def Term.isAtom : Term → Bool
  | .literal .null | .literal (.string _) => false
  | .literal _ | .truth _ | .parameter _ | .raw _ => true
  | _ => false

theorem Term.parts_of_isAtom {t : Term} (isAtom : t.isAtom = true) : t.parts = [] := by
  cases t <;> first | rfl | cases isAtom

/-- The terms of all clauses in their order. -/
def ClauseTerms.all (clauses : ClauseTerms) : List Term :=
  clauses.1.map (·.term) ++ clauses.2.1.toList ++ clauses.2.2.1 ++ clauses.2.2.2.1.toList
    ++ clauses.2.2.2.2.map (·.term)

/-! ## Gathering from terms -/

/-- What is gathered from a term: what it says itself, and then what its parts say from left to
right. Only atoms say something themselves. -/
structure Gathering (α : Type) where
  own : Term → List α
  ofTerm : Term → List α
  ofTerm_eq : ∀ t, ofTerm t = own t ++ t.parts.flatMap ofTerm
  own_eq_nil : ∀ t, t.isAtom = false → own t = []

namespace Gathering

variable {α : Type}

/-- What atoms say is gathered from the leaves. -/
def ofLeaves (own : Term → List α) (own_eq_nil : ∀ t, t.isAtom = false → own t = []) :
    Gathering α where
  own := own
  ofTerm t := t.leaves.flatMap own
  own_eq_nil := own_eq_nil
  ofTerm_eq t := by
    rw [Term.leaves_eq]
    split
    · next noParts => simp [List.isEmpty_iff.mp noParts]
    · next hasParts =>
      have notAtom : t.isAtom = false := by
        by_contra isAtom
        exact hasParts (by simp [Term.parts_of_isAtom (by simpa using isAtom)])
      rw [own_eq_nil t notAtom, List.flatMap_assoc, List.nil_append]

variable (gathering : Gathering α)

/-- What an expression says in a position, itself. -/
def said (position : Position) (e : Expr) : List α :=
  (e.ownTerm? position).toList.flatMap gathering.own

theorem ofTerm_of_leaf {t : Term} (noParts : t.parts = []) :
    gathering.ofTerm t = gathering.own t := by
  rw [gathering.ofTerm_eq, noParts, List.flatMap_nil, List.append_nil]

theorem ofTerm_of_node {t : Term} (notAtom : t.isAtom = false) :
    gathering.ofTerm t = t.parts.flatMap gathering.ofTerm := by
  rw [gathering.ofTerm_eq, gathering.own_eq_nil t notAtom, List.nil_append]

theorem ofTerm_eq_nil {t : Term} (notAtom : t.isAtom = false) (noParts : t.parts = []) :
    gathering.ofTerm t = [] := by
  rw [gathering.ofTerm_of_node notAtom, noParts, List.flatMap_nil]

@[simp]
theorem ofTerm_hostTyped (role : Role) (t : Term) :
    gathering.ofTerm (role.hostTyped t) = gathering.ofTerm t := by
  cases role with
  | condition => exact (gathering.ofTerm_of_node rfl).trans (List.flatMap_singleton _ _)
  | value | plain => rfl

theorem ofTerm_classTagTerm (schema : Schema) (row : Row) :
    gathering.ofTerm (classTagTerm schema row) = [] := by
  unfold classTagTerm
  dsimp only
  split
  · exact gathering.ofTerm_eq_nil rfl rfl
  · split <;> exact gathering.ofTerm_eq_nil rfl rfl

/-! ## Gathering from expressions -/

variable (ofExpr : Position → Expr → List α)

/-- What is gathered from an expression is what it says itself, and then what its parts say. -/
def Fits (e : Expr) : Prop :=
  ∀ position, ofExpr position e =
    gathering.said position e ++ e.placed.flatMap fun placed => ofExpr placed.1 placed.2

/-- In each position the translation of an expression leads to a term from which the same is
gathered. -/
def Carries (schema : Schema) (e : Expr) : Prop :=
  ∀ position : Position, Yields (fun _ => True) (e.toTerm schema position.role) fun t =>
    gathering.ofTerm t = ofExpr position e

variable {gathering ofExpr} {schema : Schema} {position : Position}

theorem Fits.of_leaf {e : Expr} (fits : gathering.Fits ofExpr e) (noParts : e.placed = []) :
    ofExpr position e = gathering.said position e := by
  rw [fits, noParts, List.flatMap_nil, List.append_nil]

theorem Fits.of_node {e : Expr} (fits : gathering.Fits ofExpr e)
    (noTerm : e.ownTerm? position = none) :
    ofExpr position e = e.placed.flatMap fun placed => ofExpr placed.1 placed.2 := by
  rw [fits, said, noTerm]
  rfl

/-! ## Lists -/

theorem carries_toTerms {es : List Expr} (each : ∀ e ∈ es, gathering.Carries ofExpr schema e) :
    Yields (fun _ => True) (Expr.toTerms schema es) fun ts =>
      ts.flatMap gathering.ofTerm = es.flatMap (ofExpr .value) := by
  induction es with
  | nil => exact .pure rfl
  | cons e rest inductionHypothesis =>
    obtain ⟨first, others⟩ := List.forall_mem_cons.mp each
    refine (first .value).bind fun t ofTerm => ?_
    refine (inductionHypothesis others).bind fun ts ofRest => ?_
    exact .pure (congrArg₂ (· ++ ·) ofTerm ofRest)

/-- A bare `*` says nothing in either form. -/
theorem carries_toArguments {es : List Expr}
    (fits : ∀ e ∈ es, gathering.Fits ofExpr e)
    (each : ∀ e ∈ es, gathering.Carries ofExpr schema e) :
    Yields (fun _ => True) (Expr.toArguments schema es) fun ts =>
      ts.flatMap gathering.ofTerm = es.flatMap (ofExpr .value) := by
  induction es with
  | nil => exact .pure rfl
  | cons e rest inductionHypothesis =>
    obtain ⟨first, others⟩ := List.forall_mem_cons.mp each
    obtain ⟨fitsFirst, fitsRest⟩ := List.forall_mem_cons.mp fits
    have remaining {t : Term} (ofTerm : gathering.ofTerm t = ofExpr .value e) :
        Yields (fun _ => True) (do pure (t :: (← Expr.toArguments schema rest))) fun ts =>
          ts.flatMap gathering.ofTerm = (e :: rest).flatMap (ofExpr .value) :=
      (inductionHypothesis fitsRest others).bind fun ts ofRest =>
        .pure (congrArg₂ (· ++ ·) ofTerm ofRest)
    rw [Expr.toArguments]
    cases bare : e.isBareAsterisk with
    | true =>
      apply remaining
      cases e with
      | asterisk _ => exact (gathering.ofTerm_eq_nil rfl rfl).trans (fitsFirst.of_leaf rfl).symm
      | _ => cases bare
    | false => exact (first .value).bind fun t ofTerm => remaining ofTerm

theorem carries_toOption {e : Option Expr}
    (each : ∀ part ∈ e.toList, gathering.Carries ofExpr schema part) :
    Yields (fun _ => True) (Expr.toOption schema e) fun t =>
      t.toList.flatMap gathering.ofTerm = e.toList.flatMap (ofExpr .condition) := by
  cases e with
  | none => exact .pure rfl
  | some e =>
    refine (each e (List.mem_singleton_self e) .condition).bind fun t ofTerm => ?_
    exact .pure (congrArg (· ++ []) ofTerm)

theorem carries_toItems {items : List SelectItem}
    (each : ∀ e ∈ items.map (·.expression), gathering.Carries ofExpr schema e) :
    Yields (fun _ => True) (SelectItem.toItems schema items) fun ts =>
      (ts.map (·.term)).flatMap gathering.ofTerm =
        (items.map (·.expression)).flatMap (ofExpr .value) := by
  induction items with
  | nil => exact .pure rfl
  | cons item rest inductionHypothesis =>
    obtain ⟨expression, label⟩ := item
    obtain ⟨first, others⟩ := List.forall_mem_cons.mp each
    refine (first .value).bind fun t ofTerm => ?_
    refine (inductionHypothesis others).bind fun ts ofRest => ?_
    exact .pure (congrArg₂ (· ++ ·) ofTerm ofRest)

theorem carries_toKeys {items : List OrderItem}
    (each : ∀ e ∈ items.map (·.expression), gathering.Carries ofExpr schema e) :
    Yields (fun _ => True) (OrderItem.toKeys schema items) fun keys =>
      (keys.map (·.term)).flatMap gathering.ofTerm =
        (items.map (·.expression)).flatMap (ofExpr .value) := by
  induction items with
  | nil => exact .pure rfl
  | cons item rest inductionHypothesis =>
    obtain ⟨expression, ascending⟩ := item
    obtain ⟨first, others⟩ := List.forall_mem_cons.mp each
    refine (first .value).bind fun t ofTerm => ?_
    refine (inductionHypothesis others).bind fun ts ofRest => ?_
    exact .pure (congrArg₂ (· ++ ·) ofTerm ofRest)

/-! ## Queries -/

/-- The clauses of a query become those of the select, in the same order; the conditions that keep
the rows of the from list have no terms. -/
theorem carries_toSelect {q : Query}
    (each : ∀ e ∈ q.clauses, gathering.Carries ofExpr schema e) :
    Yields (fun _ => True) (q.toSelect schema) fun select =>
      select.terms.flatMap gathering.ofTerm =
        q.placed.flatMap fun placed => ofExpr placed.1 placed.2 := by
  obtain ⟨distinct, select, sources, condition, groupBy, having, orderBy⟩ := q
  simp only [Query.clauses, List.forall_mem_append] at each
  obtain ⟨⟨⟨⟨ofItems, ofFilter⟩, ofGroups⟩, ofHaving⟩, ofKeys⟩ := each
  rw [Query.toSelect]
  cases sources with
  | nil => exact .throw _
  | cons first rest =>
    refine .get_bind fun scopes => .lift_bind ?_
    rintro ⟨scope, restrictions⟩ added
    obtain ⟨ofScope, ofRestrictions⟩ : scope.Named (fun _ => True) ∧
        ∀ condition ∈ restrictions, condition.Named fun _ => True :=
      named_of_addSources (fun _ _ => trivial) (.empty _) added
    have noTerms : restrictions.flatMap Condition.terms = [] :=
      List.flatMap_eq_nil_iff.mpr fun condition member => (ofRestrictions condition member).terms
    let same (clauses : ClauseTerms) : Prop :=
      clauses.all.flatMap gathering.ofTerm =
        (select.map (·.expression)).flatMap (ofExpr .value)
          ++ condition.toList.flatMap (ofExpr .condition) ++ groupBy.flatMap (ofExpr .value)
          ++ having.toList.flatMap (ofExpr .condition)
          ++ (orderBy.map (·.expression)).flatMap (ofExpr .value)
    refine (@Yields.within _ _ same _ _ ofScope ?_).bind ?_
    · refine (carries_toItems ofItems).bind fun items sameItems => ?_
      refine (carries_toOption ofFilter).bind fun filter sameFilter => ?_
      refine (carries_toTerms ofGroups).bind fun groups sameGroups => ?_
      refine (carries_toOption ofHaving).bind fun kept sameHaving => ?_
      refine (carries_toKeys ofKeys).bind fun keys sameKeys => .pure ?_
      simp only [same, ClauseTerms.all, List.flatMap_append, sameItems, sameFilter, sameGroups,
        sameHaving, sameKeys]
    · rintro ⟨inner, items, filter, groups, kept, keys⟩ ⟨-, sameClauses⟩
      have conditionTerms :
          (restrictions ++ filter.toList.map Condition.term).flatMap Condition.terms =
            filter.toList := by
        rw [List.flatMap_append, noTerms]
        cases filter <;> rfl
      refine .pure ?_
      simp only [Select.terms, conditionTerms, Query.placed, List.flatMap_append, List.flatMap_map]
      simpa only [same, ClauseTerms.all, List.flatMap_append, List.flatMap_map] using sameClauses

/-! ## Collections -/

/-- The terms of a select over a collection are the value that its elements are compared with, and
the test of the elements. -/
theorem gathered_collectionSelect
    {depth : Nat}
    {collection : CollectionDef}
    {key : ColumnRef}
    {elementsMatter : Bool}
    {setup : Membership}
    {wanted : Option Term}
    {kept : List Condition}
    (opened : membership schema depth collection key elementsMatter = .ok setup)
    (conditioned : memberConditions schema setup.member wanted = .ok kept)
    (compared : wanted.isSome → elementsMatter = true)
    (item : Term)
    (silent : gathering.ofTerm item = [])
    (scope : Scope)
    (test : Option Term) :
    (collectionSelect item scope
        (setup.conditions ++ kept ++ test.toList.map .term)).terms.flatMap gathering.ofTerm =
      (wanted.toList ++ test.toList).flatMap gathering.ofTerm := by
  obtain ⟨valid, hasMember⟩ := valid_of_membership opened
  rw [terms_collectionSelect valid conditioned (fun isSome => hasMember (compared isSome)),
    List.flatMap_cons, silent, List.nil_append]

/-- What is counted says nothing. -/
theorem carries_count {owner : List String} {collection : String}
    (fits : gathering.Fits ofExpr (.count owner collection)) :
    gathering.Carries ofExpr schema (.count owner collection) := by
  intro position
  rw [Expr.toTerm, fits.of_leaf rfl]
  refine (yields_resolveCollection (fun _ _ => trivial) owner collection).bind ?_
  rintro ⟨found, key⟩ -
  refine .get_bind fun scopes => .lift_bind fun setup opened => ?_
  refine .lift_bind fun kept conditioned => .pure ?_
  have counted := gathering.gathered_collectionSelect opened conditioned (by rintro ⟨⟩)
    .rowCount (gathering.ofTerm_eq_nil rfl rfl) setup.scope none
  rw [Option.toList_none, List.map_nil, List.append_nil] at counted
  exact (gathering.ofTerm_of_node rfl).trans counted

/-- A condition by kind is no plain value, so that it is translated as a condition. -/
theorem toTerm_plain_of_isBoolean {e : Expr} (isCondition : e.isBoolean = true) :
    e.toTerm schema .plain = e.toTerm schema .condition := by
  cases e with
  | literal _ | parameter _ _ | path _ | binary _ _ _ | negate _ | call _ _ | raw _ | query _
  | count _ _ | asterisk _ | classTag _ => cases isCondition
  | _ => simp only [Expr.toTerm, Role.boolean]

/-- The element is translated once, in the scope of the collection if it is a condition and in front
of it if it is a value, and stands in the select once. -/
theorem carries_contains {owner : List String} {collection : String} {element : Expr}
    (fits : gathering.Fits ofExpr (.contains owner collection element))
    (ofElement : gathering.Carries ofExpr schema element) :
    gathering.Carries ofExpr schema (.contains owner collection element) := by
  intro position
  rw [Expr.toTerm, fits.of_node rfl, Expr.placed, List.flatMap_singleton]
  refine (yields_resolveCollection (fun _ _ => trivial) owner collection).bind ?_
  rintro ⟨found, key⟩ ⟨ofKey, ofCollection⟩
  cases kind : element.isBoolean with
  | true =>
    refine .get_bind fun scopes => .lift_bind fun setup opened => ?_
    obtain ⟨ofScope, -⟩ := named_of_membership (fun _ _ => trivial) ofCollection ofKey opened
    refine .lift_bind fun kept conditioned => ?_
    rw [toTerm_plain_of_isBoolean kind]
    refine (Yields.within ofScope (ofElement .condition)).bind ?_
    rintro ⟨inner, test⟩ ⟨-, sameTest⟩
    have tested := gathering.gathered_collectionSelect opened conditioned (by rintro ⟨⟩)
      .allColumns (gathering.ofTerm_eq_nil rfl rfl) inner (some test)
    refine .pure ((gathering.ofTerm_of_node rfl).trans ?_)
    exact tested.trans ((List.append_nil _).trans sameTest)
  | false =>
    refine (ofElement .value).bind fun wanted sameWanted => ?_
    refine .get_bind fun scopes => .lift_bind fun setup opened => ?_
    refine .lift_bind fun kept conditioned => ?_
    have compared := gathering.gathered_collectionSelect opened conditioned (fun _ => rfl)
      .allColumns (gathering.ofTerm_eq_nil rfl rfl) setup.scope none
    rw [Option.toList_none, List.map_nil, List.append_nil] at compared
    refine .pure ((gathering.ofTerm_of_node rfl).trans ?_)
    exact compared.trans ((List.append_nil _).trans sameWanted)

/-! ## Operators -/

/-- Two operands one after the other. -/
theorem carries_pair (placedAt : Position) {operator : String} {e left right : Expr}
    (fits : gathering.Fits ofExpr e)
    (twoParts : e.ownTerm? position = none ∧ e.placed = [(placedAt, left), (placedAt, right)])
    (ofLeft : gathering.Carries ofExpr schema left)
    (ofRight : gathering.Carries ofExpr schema right) :
    Yields (fun _ => True) (do
      let l ← left.toTerm schema placedAt.role
      let r ← right.toTerm schema placedAt.role
      pure (Term.infixed operator l r)) fun t => gathering.ofTerm t = ofExpr position e := by
  refine (ofLeft placedAt).bind fun l sameLeft => ?_
  refine (ofRight placedAt).bind fun r sameRight => .pure ?_
  rw [gathering.ofTerm_of_node rfl, fits.of_node twoParts.1, twoParts.2]
  simp [Term.parts, sameLeft, sameRight]

/-- One operand, which stands in a term by itself. -/
theorem carries_operand (placedAt : Position) {wrap : Term → Term} {e operand : Expr}
    (fits : gathering.Fits ofExpr e)
    (onePart : e.ownTerm? position = none ∧ e.placed = [(placedAt, operand)])
    (wrapped : ∀ t, (wrap t).isAtom = false ∧ (wrap t).parts = [t])
    (ofOperand : gathering.Carries ofExpr schema operand) :
    Yields (fun _ => True) (do pure (wrap (← operand.toTerm schema placedAt.role))) fun t =>
      gathering.ofTerm t = ofExpr position e := by
  refine (ofOperand placedAt).bind fun t same => .pure ?_
  rw [gathering.ofTerm_of_node (wrapped t).1, (wrapped t).2, fits.of_node onePart.1, onePart.2,
    List.flatMap_singleton, List.flatMap_singleton, same]

/-- A comparison with null is a test of the other operand. -/
theorem carries_relational {op : RelationalOp} {left right : Expr}
    (fits : gathering.Fits ofExpr (.relational op left right))
    (ofLeft : gathering.Carries ofExpr schema left)
    (ofRight : gathering.Carries ofExpr schema right) :
    gathering.Carries ofExpr schema (.relational op left right) := by
  intro position
  rw [Expr.toTerm]
  cases comparison : nullComparison? op left right with
  | some negated =>
    have whole : (Expr.relational op left right).placed =
        [(.nullTested, if right.isNullLiteral then left else right)] := by
      rw [Expr.placed, comparison]
    cases isNull : right.isNullLiteral with
    | true =>
      rw [isNull] at whole
      exact carries_operand .nullTested fits ⟨rfl, whole⟩ (fun _ => ⟨rfl, rfl⟩) ofLeft
    | false =>
      rw [isNull] at whole
      exact carries_operand .nullTested fits ⟨rfl, whole⟩ (fun _ => ⟨rfl, rfl⟩) ofRight
  | none =>
    have whole : (Expr.relational op left right).placed = [(.value, left), (.value, right)] := by
      rw [Expr.placed, comparison]
    exact carries_pair .value fits ⟨rfl, whole⟩ ofLeft ofRight

theorem carries_call {function : String} {arguments : List Expr}
    (fits : gathering.Fits ofExpr (.call function arguments))
    (fitsEach : ∀ e ∈ arguments, gathering.Fits ofExpr e)
    (each : ∀ e ∈ arguments, gathering.Carries ofExpr schema e) :
    gathering.Carries ofExpr schema (.call function arguments) := by
  intro position
  rw [Expr.toTerm, fits.of_node rfl, Expr.placed, List.flatMap_map]
  refine (carries_toArguments fitsEach each).bind fun ts same => .pure ?_
  rw [gathering.ofTerm_hostTyped, gathering.ofTerm_of_node rfl, Term.parts, same]

/-- Without candidates nothing is left of the operand. -/
theorem carries_oneOf {operand : Expr} {candidates : List Expr}
    (fits : gathering.Fits ofExpr (.oneOf operand candidates))
    (ofOperand : gathering.Carries ofExpr schema operand)
    (each : ∀ e ∈ candidates, gathering.Carries ofExpr schema e) :
    gathering.Carries ofExpr schema (.oneOf operand candidates) := by
  intro position
  rw [Expr.toTerm]
  cases candidates with
  | nil =>
    refine .pure ?_
    rw [fits.of_leaf rfl]
    exact (gathering.ofTerm_of_leaf rfl).trans (List.flatMap_singleton _ _).symm
  | cons first rest =>
    refine (ofOperand .value).bind fun o sameOperand => ?_
    refine (carries_toTerms each).bind fun cs sameEach => .pure ?_
    have whole : ofExpr position (.oneOf operand (first :: rest)) =
        ofExpr .value operand ++ (first :: rest).flatMap (ofExpr .value) := by
      rw [fits.of_node rfl]
      exact List.flatMap_map (Position.value, ·) _ (operand :: first :: rest)
    rw [gathering.ofTerm_of_node rfl, Term.parts, List.flatMap_cons, sameOperand, sameEach, whole]

/-! ## All forms -/

/-- By induction on the parts: each form hands what holds of its parts on. -/
theorem carries (e : Expr) (fits : e.Everywhere (gathering.Fits ofExpr)) :
    gathering.Carries ofExpr schema e := by
  induction e using Expr.parts_induction with
  | step e each =>
    obtain ⟨fits, inParts⟩ := Expr.everywhere_iff.mp fits
    replace each : ∀ part ∈ e.parts, gathering.Carries ofExpr schema part :=
      fun part member => each part member (inParts part member)
    have fitsEach : ∀ part ∈ e.parts, gathering.Fits ofExpr part :=
      fun part member => (Expr.everywhere_iff.mp (inParts part member)).1
    intro position
    cases e with
    | literal _ | raw _ =>
      refine .pure ?_
      rw [fits.of_leaf rfl]
      exact (gathering.ofTerm_of_leaf rfl).trans (List.flatMap_singleton _ _).symm
    | parameter index _ =>
      refine .pure ?_
      rw [fits.of_leaf rfl, gathering.ofTerm_hostTyped]
      exact (gathering.ofTerm_of_leaf rfl).trans (List.flatMap_singleton _ _).symm
    | boolean value =>
      refine .pure ?_
      rw [fits.of_leaf rfl]
      refine (gathering.ofTerm_of_leaf ?_).trans (List.flatMap_singleton _ _).symm
      cases position <;> rfl
    | path p =>
      intro scopes later t named ran
      obtain ⟨column, between, resolved, finished⟩ := run_bind_eq_ok.mp ran
      obtain ⟨rfl, rfl⟩ := run_pure_eq_ok.mp finished
      refine ⟨(named_of_resolveColumn (fun _ _ => trivial) named resolved).1, ?_⟩
      show gathering.ofTerm (position.role.hostTyped (.column column)) = _
      rw [gathering.ofTerm_hostTyped, fits.of_leaf rfl]
      exact gathering.ofTerm_eq_nil rfl rfl
    | asterisk owner =>
      refine (yields_resolveRow (fun _ _ => trivial) owner).bind fun row _ => .pure ?_
      rw [fits.of_leaf rfl]
      exact gathering.ofTerm_eq_nil rfl rfl
    | classTag owner =>
      refine (yields_resolveRow (fun _ _ => trivial) owner).bind fun row _ => .pure ?_
      rw [fits.of_leaf rfl]
      exact gathering.ofTerm_classTagTerm schema row
    | binary _ left right =>
      exact carries_pair .value fits ⟨rfl, rfl⟩ (each left List.mem_cons_self)
        (each right (List.mem_cons_of_mem _ List.mem_cons_self))
    | and left right | or left right =>
      exact carries_pair .condition fits ⟨rfl, rfl⟩ (each left List.mem_cons_self)
        (each right (List.mem_cons_of_mem _ List.mem_cons_self))
    | negate operand =>
      exact carries_operand .value fits ⟨rfl, rfl⟩ (fun _ => ⟨rfl, rfl⟩)
        (each operand List.mem_cons_self)
    | not operand =>
      exact carries_operand .condition fits ⟨rfl, rfl⟩ (fun _ => ⟨rfl, rfl⟩)
        (each operand List.mem_cons_self)
    | nullTest operand _ =>
      exact carries_operand .nullTested fits ⟨rfl, rfl⟩ (fun _ => ⟨rfl, rfl⟩)
        (each operand List.mem_cons_self)
    | relational op left right =>
      exact carries_relational fits (each left List.mem_cons_self)
        (each right (List.mem_cons_of_mem _ List.mem_cons_self)) position
    | call function arguments =>
      rw [Expr.parts_call] at each fitsEach
      exact carries_call fits fitsEach each position
    | oneOf operand candidates =>
      rw [Expr.parts_oneOf] at each
      obtain ⟨ofOperand, ofCandidates⟩ := List.forall_mem_cons.mp each
      exact carries_oneOf fits ofOperand ofCandidates position
    | query q | nonempty q =>
      refine (carries_toSelect fun part member =>
        each part (List.mem_append_right _ member)).bind fun select same => .pure ?_
      rw [fits.of_node rfl]
      exact (gathering.ofTerm_of_node rfl).trans same
    | count owner collection => exact carries_count fits position
    | contains owner collection element =>
      have ofElement := each element (Expr.parts_contains ▸ List.mem_cons_self)
      exact carries_contains fits ofElement position

/-- What is gathered from the leaves of a statement is gathered from the expressions in its query,
in the same order. -/
theorem gathered_of_toSelect {q : Query} {select : Select}
    (translated : schema.toSelect q = .ok select) (own : Term → List α)
    (own_eq_nil : ∀ t, t.isAtom = false → own t = []) :
    select.leaves.flatMap own =
      q.occurrences.flatMap fun (position, e) => (e.ownTerm? position).toList.flatMap own := by
  obtain ⟨⟨_, later⟩, ran, same⟩ := bind_eq_ok.mp translated
  obtain rfl := Except.ok.inj same
  let ofExpr (position : Position) (e : Expr) : List α :=
    (e.occurrences position).flatMap fun (position, e) => (e.ownTerm? position).toList.flatMap own
  have fits (e : Expr) : (ofLeaves own own_eq_nil).Fits ofExpr e := by
    intro position
    simp only [ofExpr]
    rw [Expr.occurrences_eq, List.flatMap_cons, List.flatMap_assoc]
    rfl
  have gathered := (carries_toSelect (fun e _ => carries e fun part _ => fits part) _ _ _
    (List.forall_mem_nil _) ran).2
  rw [Select.leaves, Query.occurrences, List.flatMap_assoc, List.flatMap_assoc]
  exact gathered

end Gathering

end Sql

end ObjectQuery
