import ObjectQuery.Proofs.Expr.Parts
import ObjectQuery.Proofs.Sql.Naming
import ObjectQuery.Proofs.Sql.Points

/-!
Contract: what the statement of a query is made of.

Owns:
- `Term.MadeOf` and `Select.MadeOf`: the names in a statement are valid, the texts that are taken
  over as they stand have a property, and operators are those of the language;
- `Yields` and its laws, computations that keep the names of the scopes valid;
- that expressions and queries are translated into such terms, wherever their translation comes to.

Does not own: texts.
-/

namespace ObjectQuery

/-- The text that a node takes over as it stands. -/
def Expr.taken : Expr → List String
  | .raw text => [text]
  | _ => []

theorem Expr.taken_eq_nil {e : Expr} (noRaw : e.isRaw = false) : e.taken = [] := by
  cases e <;> first | rfl | cases noRaw

/-- Everywhere in an expression the names that are written have a property, and the texts that are taken
over as they stand have a property. -/
def Expr.MadeOf (own raw : String → Prop) (e : Expr) : Prop :=
  e.Everywhere fun part => (∀ name ∈ part.ownNames, own name) ∧ ∀ text ∈ part.taken, raw text

theorem Expr.MadeOf.part {own raw : String → Prop} {e part : Expr} (madeOf : e.MadeOf own raw)
    (member : part ∈ e.parts) : part.MadeOf own raw :=
  (everywhere_iff.mp madeOf).2 part member

namespace Sql

/-- What stands between two operands. -/
def infixOperators : List String :=
  ["+", "-", "*", "/", "%", "=", "<>", "<", "<=", ">", ">=", "like", "and", "or"]

theorem arithmetic_mem_infixOperators (op : ArithmeticOp) : op.symbol ∈ infixOperators := by
  cases op <;> decide

theorem relational_mem_infixOperators (op : RelationalOp) : op.symbol ∈ infixOperators := by
  cases op <;> decide

/-- The names of a select that stand outside its terms are valid: those of its from list, the
columns that its conjuncts compare, and the labels of its select list. -/
structure Select.Named (valid own : String → Prop) (select : Select) : Prop where
  sources : ∀ source ∈ select.sources, source.Named valid
  columns : ∀ condition ∈ select.conditions, ∀ ref ∈ condition.columns, valid ref.column
  labels : ∀ item ∈ select.items, ∀ label ∈ item.label, own label

/-- All names in a term are valid, all texts that are taken over as they stand have a property, and
its operators are those of the language. -/
inductive Term.MadeOf (valid own raw : String → Prop) : Term → Prop where
  | literal (value : Value) : MadeOf valid own raw (.literal value)
  | truth (value : Bool) : MadeOf valid own raw (.truth value)
  | parameter (index : Nat) : MadeOf valid own raw (.parameter index)
  | raw {text : String} (taken : raw text) : MadeOf valid own raw (.raw text)
  | column {ref : ColumnRef} (named : valid ref.column) : MadeOf valid own raw (.column ref)
  | rowOf (table : RowAlias) : MadeOf valid own raw (.rowOf table)
  | allColumns : MadeOf valid own raw .allColumns
  | rowCount : MadeOf valid own raw .rowCount
  | call {function : String} {arguments : List Term}
      (named : own function)
      (each : ∀ t ∈ arguments, MadeOf valid own raw t) : MadeOf valid own raw (.call function arguments)
  | negate {operand : Term} (ofOperand : MadeOf valid own raw operand) :
      MadeOf valid own raw (.negate operand)
  | infixed {operator : String} {left right : Term}
      (known : operator ∈ infixOperators)
      (ofLeft : MadeOf valid own raw left)
      (ofRight : MadeOf valid own raw right) : MadeOf valid own raw (.infixed operator left right)
  | not {operand : Term} (ofOperand : MadeOf valid own raw operand) : MadeOf valid own raw (.not operand)
  | isTrue {operand : Term} (ofOperand : MadeOf valid own raw operand) :
      MadeOf valid own raw (.isTrue operand)
  | nullTest {operand : Term} (negated : Bool) (ofOperand : MadeOf valid own raw operand) :
      MadeOf valid own raw (.nullTest operand negated)
  | oneOf {operand : Term} {candidates : List Term}
      (ofOperand : MadeOf valid own raw operand)
      (each : ∀ t ∈ candidates, MadeOf valid own raw t) : MadeOf valid own raw (.oneOf operand candidates)
  | caseOf {selector : ColumnRef} (branches : List (Value × String))
      (named : valid selector.column) : MadeOf valid own raw (.caseOf selector branches)
  | subselect {select : Select}
      (named : select.Named valid own)
      (each : ∀ t ∈ select.terms, MadeOf valid own raw t) : MadeOf valid own raw (.subselect select)
  | nonempty {select : Select}
      (named : select.Named valid own)
      (each : ∀ t ∈ select.terms, MadeOf valid own raw t) : MadeOf valid own raw (.nonempty select)

/-- The same for a select. -/
structure Select.MadeOf (valid own raw : String → Prop) (select : Select) : Prop where
  named : select.Named valid own
  terms : ∀ t ∈ select.terms, t.MadeOf valid own raw

/-- The same for a conjunct. -/
structure Condition.MadeOf (valid own raw : String → Prop) (condition : Condition) : Prop where
  columns : ∀ ref ∈ condition.columns, valid ref.column
  terms : ∀ t ∈ condition.terms, t.MadeOf valid own raw

variable {valid own raw : String → Prop}

theorem Condition.Named.madeOf {condition : Condition} (named : condition.Named valid) :
    condition.MadeOf valid own raw :=
  ⟨named.columns, named.terms ▸ List.forall_mem_nil _⟩

theorem Condition.madeOf_term {t : Term} (madeOf : t.MadeOf valid own raw) :
    (Condition.term t).MadeOf valid own raw :=
  ⟨List.forall_mem_nil _, List.forall_mem_singleton.mpr madeOf⟩

/-- The terms of a select are those of its clauses. -/
theorem Select.madeOf_mk {distinct : Bool} {items : List Item} {sources : List Source}
    {conditions : List Condition} {groupBy : List Term} {having : Option Term}
    {orderBy : List OrderKey}
    (ofItems : ∀ t ∈ items.map (·.term), t.MadeOf valid own raw)
    (labels : ∀ item ∈ items, ∀ label ∈ item.label, own label)
    (ofSources : ∀ source ∈ sources, source.Named valid)
    (ofConditions : ∀ condition ∈ conditions, condition.MadeOf valid own raw)
    (ofGroups : ∀ t ∈ groupBy, t.MadeOf valid own raw)
    (ofHaving : ∀ t ∈ having.toList, t.MadeOf valid own raw)
    (ofKeys : ∀ t ∈ orderBy.map (·.term), t.MadeOf valid own raw) :
    Select.MadeOf valid own raw ⟨distinct, items, sources, conditions, groupBy, having, orderBy⟩ where
  named := ⟨ofSources, fun condition member => (ofConditions condition member).columns, labels⟩
  terms := by
    simp only [Select.terms, List.forall_mem_append, List.forall_mem_flatMap]
    exact ⟨⟨⟨⟨ofItems, fun condition member => (ofConditions condition member).terms⟩, ofGroups⟩,
      ofHaving⟩, ofKeys⟩

/-- A select in a term is made as the term is. -/
theorem Term.MadeOf.nested {t : Term} (madeOf : t.MadeOf valid own raw) :
    ∀ select ∈ t.nested, select.MadeOf valid own raw := by
  induction madeOf with
  | literal _ | truth _ | parameter _ | raw _ | column _ | rowOf _ | allColumns | rowCount
  | caseOf _ _ => exact List.forall_mem_nil _
  | negate _ inductionHypothesis | not _ inductionHypothesis | isTrue _ inductionHypothesis
  | nullTest _ _ inductionHypothesis => exact inductionHypothesis
  | infixed _ _ _ inductionLeft inductionRight =>
    exact List.forall_mem_append.mpr ⟨inductionLeft, inductionRight⟩
  | call _ _ inductionHypothesis =>
    rw [Term.nested, Term.nestedInEach_eq]
    exact List.forall_mem_flatMap.mpr inductionHypothesis
  | oneOf _ _ inductionOperand inductionEach =>
    rw [Term.nested, Term.nestedInEach_eq]
    exact List.forall_mem_append.mpr ⟨inductionOperand, List.forall_mem_flatMap.mpr inductionEach⟩
  | subselect named each _ | nonempty named each _ =>
    exact List.forall_mem_singleton.mpr ⟨named, each⟩

theorem Select.MadeOf.within {outer inner : Select} (madeOf : outer.MadeOf valid own raw)
    (within : outer.Within inner) : inner.MadeOf valid own raw := by
  induction within with
  | refl => exact madeOf
  | tail _ isPart inductionHypothesis =>
    exact List.forall_mem_flatMap.mpr (fun t member => (inductionHypothesis.terms t member).nested)
      _ isPart

theorem Select.MadeOf.condition {select : Select} {condition : Condition}
    (madeOf : select.MadeOf valid own raw)
    (member : condition ∈ select.conditions) : condition.MadeOf valid own raw where
  columns := madeOf.named.columns condition member
  terms t inCondition := madeOf.terms t (by
    have inClause := List.mem_flatMap_of_mem member inCondition
    simp only [Select.terms, List.mem_append]
    exact .inl (.inl (.inl (.inr inClause))))

theorem Term.MadeOf.hostTyped {t : Term} (madeOf : t.MadeOf valid own raw) (role : Role) :
    (role.hostTyped t).MadeOf valid own raw := by
  cases role with
  | condition => exact .isTrue madeOf
  | value | plain => exact madeOf

theorem Term.madeOf_boolean (role : Role) (value : Bool) :
    (role.boolean value).MadeOf valid own raw := by
  cases role with
  | value => exact .literal _
  | condition | plain => exact .truth value

/-! ## Computations that keep names valid -/

/-- From scopes with valid names a computation leads to such scopes again, and to a good result. -/
def Yields {α : Type} (valid : String → Prop) (computation : Scoped α) (good : α → Prop) : Prop :=
  ∀ (scopes later : Scopes) (value : α), scopes.Named valid →
    computation.run scopes = .ok (value, later) → later.Named valid ∧ good value

namespace Yields

variable {α β : Type} {good : α → Prop} {good' : β → Prop}

theorem bind {first : Scoped α} {next : α → Scoped β}
    (ofFirst : Yields valid first good)
    (ofNext : ∀ value, good value → Yields valid (next value) good') :
    Yields valid (first >>= next) good' := by
  intro scopes later result named ran
  obtain ⟨value, between, ranFirst, ranNext⟩ := run_bind_eq_ok.mp ran
  obtain ⟨namedBetween, isGood⟩ := ofFirst scopes between value named ranFirst
  exact ofNext value isGood between later result namedBetween ranNext

theorem pure {value : α} (isGood : good value) : Yields valid (pure value) good := by
  intro scopes later result named ran
  obtain ⟨rfl, rfl⟩ := run_pure_eq_ok.mp ran
  exact ⟨named, isGood⟩

theorem throw (error : Error) : Yields valid (throw error) good :=
  fun _ _ _ _ ran => absurd ran run_throw_ne_ok

/-- A step of the schema leaves the scopes as they are. -/
theorem lift_bind {step : Except Error α} {next : α → Scoped β}
    (ofNext : ∀ value, step = .ok value → Yields valid (next value) good') :
    Yields valid (liftM step >>= next) good' := by
  intro scopes later result named ran
  obtain ⟨value, _, lifted, ranNext⟩ := run_bind_eq_ok.mp ran
  obtain ⟨stepped, rfl⟩ := run_lift_eq_ok.mp lifted
  exact ofNext value stepped _ later result named ranNext

theorem get_bind {next : Scopes → Scoped β}
    (ofNext : ∀ scopes, Yields valid (next scopes) good') :
    Yields valid (get >>= next) good' :=
  fun scopes later result named ran => ofNext scopes scopes later result named ran

/-- A computation runs in one more scope, which is handed back. -/
theorem within {scope : Scope} {body : Scoped α}
    (ofScope : scope.Named valid)
    (ofBody : Yields valid body good) :
    Yields valid (within scope body) fun result => result.1.Named valid ∧ good result.2 := by
  rintro scopes later ⟨inner, result⟩ named ran
  obtain ⟨namedLater, isGood⟩ :=
    ofBody _ _ _ (Scopes.Named.cons ofScope named) (run_within_eq_ok.mp ran)
  obtain ⟨ofInner, namedOuter⟩ := List.forall_mem_cons.mp namedLater
  exact ⟨namedOuter, ofInner, isGood⟩

end Yields

/-! ## Expressions -/

/-- In each role the translation of an expression leads to a term made of valid names and of texts
with a property. -/
def Makes (valid own raw : String → Prop) (schema : Schema) (e : Expr) : Prop :=
  ∀ role, Yields valid (e.toTerm schema role) (Term.MadeOf valid own raw)

variable {schema : Schema}

theorem yields_toTerms {es : List Expr} (each : ∀ e ∈ es, Makes valid own raw schema e) :
    Yields valid (Expr.toTerms schema es) fun ts => ∀ t ∈ ts, t.MadeOf valid own raw := by
  induction es with
  | nil => exact .pure (List.forall_mem_nil _)
  | cons e rest inductionHypothesis =>
    obtain ⟨first, others⟩ := List.forall_mem_cons.mp each
    refine (first .value).bind fun t ofTerm => ?_
    refine (inductionHypothesis others).bind fun ts ofRest => ?_
    exact .pure (List.forall_mem_cons.mpr ⟨ofTerm, ofRest⟩)

theorem yields_toArguments {es : List Expr} (each : ∀ e ∈ es, Makes valid own raw schema e) :
    Yields valid (Expr.toArguments schema es) fun ts => ∀ t ∈ ts, t.MadeOf valid own raw := by
  induction es with
  | nil => exact .pure (List.forall_mem_nil _)
  | cons e rest inductionHypothesis =>
    obtain ⟨first, others⟩ := List.forall_mem_cons.mp each
    have remaining {t : Term} (ofTerm : t.MadeOf valid own raw) :
        Yields valid (do pure (t :: (← Expr.toArguments schema rest)))
          fun ts => ∀ t ∈ ts, t.MadeOf valid own raw :=
      (inductionHypothesis others).bind fun ts ofRest =>
        .pure (List.forall_mem_cons.mpr ⟨ofTerm, ofRest⟩)
    rw [Expr.toArguments]
    cases e.isBareAsterisk with
    | true => exact remaining .allColumns
    | false => exact (first .value).bind fun t ofTerm => remaining ofTerm

theorem yields_toOption {e : Option Expr} (each : ∀ part ∈ e.toList, Makes valid own raw schema part) :
    Yields valid (Expr.toOption schema e) fun t => ∀ part ∈ t.toList, part.MadeOf valid own raw := by
  cases e with
  | none => exact .pure (List.forall_mem_nil _)
  | some e =>
    refine (each e (List.mem_singleton_self _) .condition).bind fun t ofTerm => ?_
    exact .pure (List.forall_mem_singleton.mpr ofTerm)

theorem yields_toItems {items : List SelectItem}
    (labels : ∀ item ∈ items, ∀ label ∈ item.label, own label)
    (each : ∀ e ∈ items.map (·.expression), Makes valid own raw schema e) :
    Yields valid (SelectItem.toItems schema items) fun ts =>
      (∀ t ∈ ts.map (·.term), t.MadeOf valid own raw) ∧
        ∀ item ∈ ts, ∀ label ∈ item.label, own label := by
  induction items with
  | nil => exact .pure ⟨List.forall_mem_nil _, List.forall_mem_nil _⟩
  | cons item rest inductionHypothesis =>
    obtain ⟨expression, label⟩ := item
    obtain ⟨first, others⟩ := List.forall_mem_cons.mp each
    obtain ⟨ofLabel, otherLabels⟩ := List.forall_mem_cons.mp labels
    refine (first .value).bind fun t ofTerm => ?_
    refine (inductionHypothesis otherLabels others).bind ?_
    rintro ts ⟨ofRest, ofLabels⟩
    exact .pure ⟨List.forall_mem_cons.mpr ⟨ofTerm, ofRest⟩,
      List.forall_mem_cons.mpr ⟨ofLabel, ofLabels⟩⟩

theorem yields_toKeys {items : List OrderItem}
    (each : ∀ e ∈ items.map (·.expression), Makes valid own raw schema e) :
    Yields valid (OrderItem.toKeys schema items) fun keys =>
      ∀ t ∈ keys.map (·.term), t.MadeOf valid own raw := by
  induction items with
  | nil => exact .pure (List.forall_mem_nil _)
  | cons item rest inductionHypothesis =>
    obtain ⟨expression, ascending⟩ := item
    obtain ⟨first, others⟩ := List.forall_mem_cons.mp each
    refine (first .value).bind fun t ofTerm => ?_
    refine (inductionHypothesis others).bind fun ts ofRest => ?_
    exact .pure (List.forall_mem_cons.mpr ⟨ofTerm, ofRest⟩)

/-- Two operands one after the other. -/
theorem yields_pair {left right : Expr} {role : Role} {operator : String}
    (known : operator ∈ infixOperators)
    (ofLeft : Makes valid own raw schema left)
    (ofRight : Makes valid own raw schema right) :
    Yields valid (do
      let l ← left.toTerm schema role
      let r ← right.toTerm schema role
      pure (Term.infixed operator l r)) (Term.MadeOf valid own raw) :=
  (ofLeft role).bind fun _ madeLeft => (ofRight role).bind fun _ madeRight =>
    .pure (.infixed known madeLeft madeRight)

theorem makes_relational (op : RelationalOp) {left right : Expr}
    (ofLeft : Makes valid own raw schema left)
    (ofRight : Makes valid own raw schema right) :
    Makes valid own raw schema (.relational op left right) := by
  intro role
  rw [Expr.toTerm]
  split
  · split
    · exact (ofLeft .plain).bind fun _ madeOf => .pure (.nullTest _ madeOf)
    · exact (ofRight .plain).bind fun _ madeOf => .pure (.nullTest _ madeOf)
  · exact yields_pair (relational_mem_infixOperators op) ofLeft ofRight

theorem makes_oneOf {operand : Expr} {candidates : List Expr}
    (ofOperand : Makes valid own raw schema operand)
    (each : ∀ e ∈ candidates, Makes valid own raw schema e) :
    Makes valid own raw schema (.oneOf operand candidates) := by
  intro role
  rw [Expr.toTerm]
  split
  · exact .pure (.truth false)
  · refine (ofOperand .value).bind fun o madeOperand => ?_
    exact (yields_toTerms each).bind fun cs madeEach => .pure (.oneOf madeOperand madeEach)

section

variable (names : ∀ name ∈ schema.storedNames, valid name)

include names

theorem yields_resolveRow (chain : List String) :
    Yields valid (resolveRow schema chain) fun _ => True :=
  fun _ _ _ named ran => ⟨named_of_resolveRow names named ran, trivial⟩

theorem madeOf_classTagTerm (row : Row) : (classTagTerm schema row).MadeOf valid own raw := by
  unfold classTagTerm
  dsimp only
  split
  · exact .literal _
  · next selector found =>
    have ofSelector : valid selector.column := by
      split at found
      · exact names _ (Schema.selector_mem_storedNames found)
      · cases found
    split
    · exact .literal _
    · exact .caseOf _ ofSelector

/-! ## Queries -/

omit names in
/-- The terms of the clauses are made of valid names and of texts with a property. -/
structure ClausesMadeOf (valid own raw : String → Prop) (clauses : ClauseTerms) : Prop where
  items : ∀ t ∈ clauses.1.map (·.term), t.MadeOf valid own raw
  labels : ∀ item ∈ clauses.1, ∀ label ∈ item.label, own label
  filter : ∀ t ∈ clauses.2.1.toList, t.MadeOf valid own raw
  groups : ∀ t ∈ clauses.2.2.1, t.MadeOf valid own raw
  having : ∀ t ∈ clauses.2.2.2.1.toList, t.MadeOf valid own raw
  keys : ∀ t ∈ clauses.2.2.2.2.map (·.term), t.MadeOf valid own raw

theorem yields_toSelect {q : Query}
    (labels : ∀ item ∈ q.select, ∀ label ∈ item.label, own label)
    (each : ∀ e ∈ q.clauses, Makes valid own raw schema e) :
    Yields valid (q.toSelect schema) (Select.MadeOf valid own raw) := by
  obtain ⟨distinct, select, sources, condition, groupBy, having, orderBy⟩ := q
  simp only [Query.clauses, List.forall_mem_append] at each
  obtain ⟨⟨⟨⟨ofItems, ofFilter⟩, ofGroups⟩, ofHaving⟩, ofKeys⟩ := each
  rw [Query.toSelect]
  cases sources with
  | nil => exact .throw _
  | cons first rest =>
    refine .get_bind fun scopes => .lift_bind ?_
    rintro ⟨scope, restrictions⟩ added
    obtain ⟨ofScope, ofRestrictions⟩ := named_of_addSources names (.empty _) added
    refine (@Yields.within _ _ (ClausesMadeOf valid own raw) _ _ ofScope ?_).bind ?_
    · refine (yields_toItems labels ofItems).bind fun items madeItems => ?_
      refine (yields_toOption ofFilter).bind fun filter madeFilter => ?_
      refine (yields_toTerms ofGroups).bind fun groups madeGroups => ?_
      refine (yields_toOption ofHaving).bind fun kept madeHaving => ?_
      refine (yields_toKeys ofKeys).bind fun keys madeKeys => ?_
      exact .pure ⟨madeItems.1, madeItems.2, madeFilter, madeGroups, madeHaving, madeKeys⟩
    · rintro ⟨inner, items, filter, groups, kept, keys⟩ ⟨ofInner, ofClauses⟩
      refine .pure (Select.madeOf_mk ofClauses.items ofClauses.labels ofInner.sources ?_
        ofClauses.groups ofClauses.having ofClauses.keys)
      refine List.forall_mem_append.mpr ⟨fun condition member =>
        (ofRestrictions condition member).madeOf, fun condition member => ?_⟩
      obtain ⟨t, isFilter, rfl⟩ := List.mem_map.mp member
      exact Condition.madeOf_term (ofClauses.filter t isFilter)

/-! ## Collections -/

omit names in
theorem madeOf_collectionSelect {item : Term} {scope : Scope} {conditions : List Condition}
    (ofItem : item.MadeOf valid own raw)
    (ofScope : scope.Named valid)
    (ofConditions : ∀ condition ∈ conditions, condition.MadeOf valid own raw) :
    (collectionSelect item scope conditions).MadeOf valid own raw :=
  Select.madeOf_mk (List.forall_mem_singleton.mpr ofItem)
    (List.forall_mem_singleton.mpr fun _ isLabel => nomatch isLabel) ofScope.sources ofConditions
    (List.forall_mem_nil _) (List.forall_mem_nil _) (List.forall_mem_nil _)

/-- The last condition on the elements compares a key with a value, if one is given. -/
theorem madeOf_memberConditions {member : Option Row} {wanted : Option Term}
    {kept : List Condition}
    (ofWanted : ∀ t ∈ wanted, t.MadeOf valid own raw)
    (conditioned : memberConditions schema member wanted = .ok kept) :
    ∀ condition ∈ kept, condition.MadeOf valid own raw := by
  cases member with
  | none =>
    obtain rfl := Except.ok.inj conditioned
    exact List.forall_mem_nil _
  | some row =>
    obtain ⟨restriction, restricted, conditioned⟩ := bind_eq_ok.mp conditioned
    have ofKept : ∀ condition ∈ restriction.toList.map Condition.restriction,
        condition.MadeOf valid own raw := fun condition member =>
      (@named_of_memberConditions _ _ names (some row) _ (bind_eq_ok.mpr ⟨_, restricted, rfl⟩)
        condition member).madeOf
    cases wanted with
    | none =>
      obtain rfl := Except.ok.inj conditioned
      exact ofKept
    | some t =>
      obtain ⟨key, isKey, finished⟩ := bind_eq_ok.mp conditioned
      obtain rfl := Except.ok.inj finished
      refine List.forall_mem_append.mpr ⟨ofKept, List.forall_mem_singleton.mpr ⟨?_, ?_⟩⟩
      · exact List.forall_mem_singleton.mpr (named_of_requireKeyColumn names isKey)
      · exact List.forall_mem_singleton.mpr (ofWanted t rfl)

theorem yields_resolveCollection (owner : List String) (collection : String) :
    Yields valid (resolveCollection schema owner collection) fun found =>
      valid found.2.column ∧ ∀ stored ∈ found.1.storage.storedNames, valid stored :=
  fun _ _ _ named ran => named_of_resolveCollection names named ran

theorem makes_count (owner : List String) (collection : String) :
    Makes valid own raw schema (.count owner collection) := by
  intro role
  rw [Expr.toTerm]
  refine (yields_resolveCollection names owner collection).bind ?_
  rintro ⟨found, key⟩ ⟨ofKey, ofCollection⟩
  refine .get_bind fun scopes => .lift_bind fun setup opened => ?_
  obtain ⟨ofScope, ofConditions⟩ := named_of_membership names ofCollection ofKey opened
  refine .lift_bind fun kept conditioned => ?_
  have ofKept : ∀ condition ∈ kept, condition.MadeOf valid own raw :=
    madeOf_memberConditions names (by rintro _ ⟨⟩) conditioned
  have counted := madeOf_collectionSelect .rowCount ofScope
    (List.forall_mem_append.mpr ⟨fun condition member => (ofConditions condition member).madeOf,
      ofKept⟩)
  exact .pure (.subselect counted.named counted.terms)

/-- The element is a condition on the rows of the collection, or a value that one of them has. -/
theorem makes_contains (owner : List String) (collection : String) {element : Expr}
    (ofElement : Makes valid own raw schema element) :
    Makes valid own raw schema (.contains owner collection element) := by
  intro role
  rw [Expr.toTerm]
  refine (yields_resolveCollection names owner collection).bind ?_
  rintro ⟨found, key⟩ ⟨ofKey, ofCollection⟩
  cases element.isBoolean with
  | true =>
    refine .get_bind fun scopes => .lift_bind fun setup opened => ?_
    obtain ⟨ofScope, ofConditions⟩ := named_of_membership names ofCollection ofKey opened
    refine .lift_bind fun kept conditioned => ?_
    have ofKept : ∀ condition ∈ kept, condition.MadeOf valid own raw :=
      madeOf_memberConditions names (by rintro _ ⟨⟩) conditioned
    refine (Yields.within ofScope (ofElement .plain)).bind ?_
    rintro ⟨inner, test⟩ ⟨ofInner, madeTest⟩
    have tested := madeOf_collectionSelect .allColumns ofInner
      (List.forall_mem_append.mpr ⟨List.forall_mem_append.mpr
        ⟨fun condition member => (ofConditions condition member).madeOf, ofKept⟩,
          List.forall_mem_singleton.mpr (Condition.madeOf_term madeTest)⟩)
    exact .pure (.nonempty tested.named tested.terms)
  | false =>
    refine (ofElement .value).bind fun wanted madeWanted => ?_
    refine .get_bind fun scopes => .lift_bind fun setup opened => ?_
    obtain ⟨ofScope, ofConditions⟩ := named_of_membership names ofCollection ofKey opened
    refine .lift_bind fun kept conditioned => ?_
    have ofKept : ∀ condition ∈ kept, condition.MadeOf valid own raw :=
      madeOf_memberConditions names (by rintro _ ⟨⟩; exact madeWanted) conditioned
    have compared := madeOf_collectionSelect .allColumns ofScope
      (List.forall_mem_append.mpr ⟨fun condition member => (ofConditions condition member).madeOf,
        ofKept⟩)
    exact .pure (.nonempty compared.named compared.terms)

/-! ## All forms -/

/-- By induction on the parts: each form hands what holds of its parts on. -/
theorem makes (e : Expr) (madeOf : e.MadeOf own raw) : Makes valid own raw schema e := by
  induction e using Expr.parts_induction with
  | step e each =>
    obtain ⟨⟨ofNames, ofTaken⟩, ofParts⟩ := Expr.everywhere_iff.mp madeOf
    replace each : ∀ part ∈ e.parts, Makes valid own raw schema part :=
      fun part member => each part member (ofParts part member)
    have labels (q : Query) (same : e.ownNames = q.select.filterMap (·.label)) :
        ∀ item ∈ q.select, ∀ label ∈ item.label, own label :=
      fun item isItem label isLabel =>
        ofNames label (same ▸ List.mem_filterMap.mpr ⟨item, isItem, isLabel⟩)
    intro role
    cases e with
    | literal value => exact .pure (.literal value)
    | parameter index _ => exact .pure ((Term.MadeOf.parameter index).hostTyped role)
    | raw text => exact .pure (.raw (ofTaken text (List.mem_singleton_self text)))
    | boolean value => exact .pure (Term.madeOf_boolean role value)
    | path p =>
      intro scopes later t named ran
      obtain ⟨column, between, resolved, finished⟩ := run_bind_eq_ok.mp ran
      obtain ⟨rfl, rfl⟩ := run_pure_eq_ok.mp finished
      obtain ⟨namedLater, ofColumn⟩ := named_of_resolveColumn names named resolved
      exact ⟨namedLater, (Term.MadeOf.column ofColumn).hostTyped role⟩
    | asterisk owner =>
      exact (yields_resolveRow names owner).bind fun row _ => .pure (.rowOf row.name)
    | classTag owner =>
      exact (yields_resolveRow names owner).bind fun row _ => .pure (madeOf_classTagTerm names row)
    | binary op left right =>
      exact yields_pair (arithmetic_mem_infixOperators op) (each left List.mem_cons_self)
        (each right (List.mem_cons_of_mem _ List.mem_cons_self))
    | and left right | or left right =>
      exact yields_pair (by decide) (each left List.mem_cons_self)
        (each right (List.mem_cons_of_mem _ List.mem_cons_self))
    | negate operand =>
      exact (each operand List.mem_cons_self .value).bind fun _ madeOf => .pure (.negate madeOf)
    | not operand =>
      exact (each operand List.mem_cons_self .condition).bind fun _ madeOf => .pure (.not madeOf)
    | nullTest operand negated =>
      exact (each operand List.mem_cons_self .plain).bind
        fun _ madeOf => .pure (.nullTest negated madeOf)
    | relational op left right =>
      exact makes_relational op (each left List.mem_cons_self)
        (each right (List.mem_cons_of_mem _ List.mem_cons_self)) role
    | call function arguments =>
      rw [Expr.parts_call] at each
      have ofFunction : own function := ofNames function List.mem_cons_self
      exact (yields_toArguments each).bind
        fun _ madeEach => .pure ((Term.MadeOf.call ofFunction madeEach).hostTyped role)
    | oneOf operand candidates =>
      rw [Expr.parts_oneOf] at each
      obtain ⟨ofOperand, ofCandidates⟩ := List.forall_mem_cons.mp each
      exact makes_oneOf ofOperand ofCandidates role
    | query q =>
      refine (yields_toSelect names (labels q rfl) fun part member =>
        each part (List.mem_append_right _ member)).bind fun select made => ?_
      exact .pure (.subselect made.named made.terms)
    | nonempty q =>
      refine (yields_toSelect names (labels q rfl) fun part member =>
        each part (List.mem_append_right _ member)).bind fun select made => ?_
      exact .pure (.nonempty made.named made.terms)
    | count owner collection => exact makes_count names owner collection role
    | contains owner collection element =>
      have ofElement := each element (Expr.parts_contains ▸ List.mem_cons_self)
      exact makes_contains names owner collection ofElement role

/-- The statement of a query. -/
theorem madeOf_of_toSelect {q : Query} {statement : Select}
    (madeOf : (Expr.query q).MadeOf own raw)
    (translated : schema.toSelect q = .ok statement) : statement.MadeOf valid own raw := by
  obtain ⟨last, ran⟩ := Query.run_of_toSelect translated
  obtain ⟨t, next, others, first, -, same⟩ := runInTurn_cons_eq_ok.mp ran
  obtain ⟨-, made⟩ := makes names _ madeOf .value [] next t (List.forall_mem_nil _) first
  obtain rfl : Term.subselect statement = t := (List.cons.inj same).1
  cases made with
  | subselect named each => exact ⟨named, each⟩

/-! ## What a translation comes to -/

theorem Opens.named {e : Expr} {scopes below : Scopes} {scope : Scope} {body : List Task}
    (opens : Opens schema e scopes below scope body)
    (named : scopes.Named valid)
    (madeOf : e.MadeOf own raw) : Scopes.Named valid (scope :: below) := by
  cases opens with
  | query _ opened | nonempty _ opened =>
    exact .cons (named_of_addSources names (.empty _) opened).1 named
  | count resolved opened | condition _ resolved opened =>
    obtain ⟨namedBelow, ofKey, ofCollection⟩ := named_of_resolveCollection names named resolved
    exact .cons (named_of_membership names ofCollection ofKey opened).1 namedBelow
  | value _ resolved translated opened =>
    obtain ⟨namedBetween, ofKey, ofCollection⟩ := named_of_resolveCollection names named resolved
    have ofElement := madeOf.part (Expr.parts_contains ▸ List.mem_cons_self)
    obtain ⟨namedBelow, -⟩ := makes names _ ofElement .value _ _ _ namedBetween translated
    exact .cons (named_of_membership names ofCollection ofKey opened).1 namedBelow

theorem Task.named_of_run {task : Task} {scopes next : Scopes} {t : Term}
    (madeOf : ∀ role e, task = .term role e → e.MadeOf own raw)
    (named : scopes.Named valid)
    (ran : (task.run schema).run scopes = .ok (t, next)) : next.Named valid := by
  cases task with
  | row chain =>
    obtain ⟨row, resolved, -⟩ := run_row_eq_ok.mp ran
    exact named_of_resolveRow names named resolved
  | term role e => exact (makes names e (madeOf role e rfl) role _ _ _ named ran).1

/-- Wherever the translation of tasks comes to, the names in the scopes are valid, and an expression
that it comes to is made as the tasks are. -/
theorem Meets.madeOf {tasks : List Task} {met : Task} {scopes scopes' : Scopes}
    (meets : Meets schema tasks scopes met scopes')
    (each : ∀ role e, .term role e ∈ tasks → e.MadeOf own raw)
    (named : scopes.Named valid) :
    scopes'.Named valid ∧ ∀ role e, met = .term role e → e.MadeOf own raw := by
  induction meets with
  | here => exact ⟨named, fun role e same => each role e (same ▸ List.mem_cons_self)⟩
  | later ran _ inductionHypothesis =>
    have namedNext := Task.named_of_run names
      (fun role e same => each role e (same ▸ List.mem_cons_self)) named ran
    exact inductionHypothesis (fun role e member => each role e (List.mem_cons_of_mem _ member))
      namedNext
  | part _ inductionHypothesis =>
    have whole := each _ _ List.mem_cons_self
    exact inductionHypothesis (fun role e member => whole.part (mem_parts_of_mem_tasks member))
      named
  | level opens _ inductionHypothesis =>
    have whole := each _ _ List.mem_cons_self
    exact inductionHypothesis
      (fun role e member => whole.part (mem_parts_of_mem_body opens member))
      (opens.named names named whole)

/-- The term of each expression that the translation of a query comes to, in each role. -/
theorem madeOf_of_meets {q : Query} {met role : Role} {part : Expr} {scopes next : Scopes}
    {t : Term}
    (madeOf : (Expr.query q).MadeOf own raw)
    (meets : q.Meets schema (.term met part) scopes)
    (translated : (part.toTerm schema role).run scopes = .ok (t, next)) :
    t.MadeOf valid own raw := by
  have whole : ∀ role e, Task.term role e ∈ [Task.term .value (.query q)] → e.MadeOf own raw := by
    intro role e member
    obtain ⟨-, rfl⟩ := Task.term.inj (List.mem_singleton.mp member)
    exact madeOf
  obtain ⟨named, ofPart⟩ := Meets.madeOf names meets whole (List.forall_mem_nil _)
  exact (makes names part (ofPart met part rfl) role _ _ _ named translated).2

end

end Sql

end ObjectQuery
