import ObjectQuery.Proofs.Sql.Openings
import ObjectQuery.Proofs.Sql.Templates
import ObjectQuery.Proofs.Sql.Uniform

/-!
Contract: the contents of string literals decide nothing about a translation.

Trees that differ in these contents alone are translated alike, and their texts are one template.

Owns: `Expr.Clean` and `Templated`, and that each expression and query without raw text is
translated so.

Does not own: what is read off the whole text.
-/

namespace ObjectQuery

open Text (Strings Shaped ShapedEach)

namespace Expr

/-- No text is taken over as it stands, and the names that are written are mild. -/
def Clean (strict : Prop) (e : Expr) : Prop :=
  e.Everywhere fun part => part.isRaw = false ∧ ∀ name ∈ part.ownNames, IsMild strict name

end Expr

namespace Sql

/-- Wherever the names are mild, the translations of an expression with other contents are alike,
and the texts are a template. -/
def Templated (strict : Prop) (config : Config) (schema : Schema) (e : Expr) : Prop :=
  ∀ (role : Role) (scopes : Scopes), scopes.Named (IsMild strict) →
    Uniform strict (fun strings => (e.refill strings).toTerm schema role) scopes fun t =>
      Spelled strict config t e.SignFree e.IsSigned

variable {strict : Prop} {config : Config} {schema : Schema} {scopes : Scopes}

theorem Templated.part {e : Expr} (templated : Templated strict config schema e)
    (role : Role) (index : Nat) (mild : scopes.Named (IsMild strict)) :
    Uniform strict (fun strings => (e.refill (strings.under index)).toTerm schema role) scopes
      fun t => Spelled strict config t e.SignFree e.IsSigned :=
  (templated role scopes mild).under index fun _ spelled => spelled.under index

/-! ## Lists of expressions -/

section

variable (mild : scopes.Named (IsMild strict))

include mild

theorem uniform_toTerms {es : List Expr} (each : ∀ e ∈ es, Templated strict config schema e) :
    Uniform strict (fun strings => Expr.toTerms schema (Expr.refillEach strings es)) scopes
      fun ts => SpelledEach strict config ts (∀ e ∈ es, e.SignFree) := by
  induction es generalizing scopes with
  | nil => exact .pure mild (ShapedEach.nil.congr (fun _ => rfl) (by simp))
  | cons e rest inductionHypothesis =>
    obtain ⟨first, others⟩ := List.forall_mem_cons.mp each
    simp only [Expr.refillEach, Expr.toTerms]
    refine (first.part .value 0 mild).bind fun t _ mild ofFirst => ?_
    refine ((inductionHypothesis mild others).under 1 fun _ spelled => spelled.under 1).bind ?_
    intro ts _ mild ofRest
    exact .pure mild ((ShapedEach.cons ofFirst.shaped ofRest).congr (fun _ => rfl)
      List.forall_mem_cons)

theorem uniform_toArguments {es : List Expr} (each : ∀ e ∈ es, Templated strict config schema e) :
    Uniform strict (fun strings => Expr.toArguments schema (Expr.refillEach strings es)) scopes
      fun ts => SpelledEach strict config ts (∀ e ∈ es, e.SignFree) := by
  induction es generalizing scopes with
  | nil => exact .pure mild (ShapedEach.nil.congr (fun _ => rfl) (by simp))
  | cons e rest inductionHypothesis =>
    obtain ⟨first, others⟩ := List.forall_mem_cons.mp each
    have remaining {t : Strings → Term} {scopes : Scopes} (mild : scopes.Named (IsMild strict))
        (ofFirst : Shaped strict (fun strings => (t strings).text config) e.SignFree) :
        Uniform strict (fun strings : Strings => do
          pure (t strings :: (← Expr.toArguments schema (Expr.refillEach (strings.under 1) rest))))
          scopes fun ts => SpelledEach strict config ts (∀ part ∈ e :: rest, part.SignFree) := by
      refine ((inductionHypothesis mild others).under 1 fun _ spelled => spelled.under 1).bind ?_
      intro ts _ mild ofRest
      exact .pure mild ((ShapedEach.cons ofFirst ofRest).congr (fun _ => rfl) List.forall_mem_cons)
    simp only [Expr.refillEach, Expr.toArguments, Expr.isBareAsterisk_refill]
    cases bare : e.isBareAsterisk with
    | true =>
      have noSign : e.SignFree := Expr.signFree_of_isBareAsterisk bare
      exact remaining mild (spelled_allColumns.shaped.congr (fun _ => rfl) (iff_true_intro noSign))
    | false =>
      exact (first.part .value 0 mild).bind fun t _ mild ofFirst => remaining mild ofFirst.shaped

theorem uniform_toOption {e : Option Expr}
    (each : ∀ part ∈ e.toList, Templated strict config schema part) :
    Uniform strict (fun strings => Expr.toOption schema (Expr.refillOption strings e)) scopes
      fun t => ShapedEach strict (fun strings => Term.optionTexts config (t strings))
        (∀ part ∈ e.toList, part.SignFree) := by
  cases e with
  | none => exact .pure mild (ShapedEach.nil.congr (fun _ => rfl) (by simp))
  | some e =>
    simp only [Expr.refillOption, Expr.toOption]
    refine (each e (List.mem_singleton_self e) .condition scopes mild).bind ?_
    intro t _ mild ofTerm
    exact .pure mild ((ShapedEach.singleton ofTerm.shaped).congr (fun _ => rfl) (by simp))

theorem uniform_toItems {items : List SelectItem}
    (labels : ∀ item ∈ items, ∀ name ∈ item.label, IsMild strict name)
    (each : ∀ e ∈ items.map (·.expression), Templated strict config schema e) :
    Uniform strict (fun strings => SelectItem.toItems schema (SelectItem.refillEach strings items))
      scopes fun ts => ShapedEach strict (fun strings => Item.texts config (ts strings))
        (∀ e ∈ items.map (·.expression), e.SignFree) := by
  induction items generalizing scopes with
  | nil => exact .pure mild (ShapedEach.nil.congr (fun _ => rfl) (by simp))
  | cons item rest inductionHypothesis =>
    obtain ⟨expression, label⟩ := item
    obtain ⟨first, others⟩ := List.forall_mem_cons.mp each
    obtain ⟨ofLabel, otherLabels⟩ := List.forall_mem_cons.mp labels
    simp only [SelectItem.refillEach, SelectItem.toItems]
    refine (first.part .value 0 mild).bind fun t _ mild ofFirst => ?_
    refine ((inductionHypothesis mild otherLabels others).under 1
      fun _ spelled => spelled.under 1).bind ?_
    intro ts _ mild ofRest
    cases label with
    | none =>
      exact .pure mild ((ShapedEach.cons ofFirst.shaped ofRest).congr (fun _ => rfl)
        List.forall_mem_cons)
    | some name =>
      have named : IsMild strict (config.spaced "as" ++ config.identifier name) :=
        (isMild_spaced config "as" (by simp)).append (isMild_identifier config (ofLabel name rfl))
      refine .pure mild ((ShapedEach.cons
        (ofFirst.shaped.before (named.separator (by simp [Config.spaced]))) ofRest).congr
        (fun _ => ?_) List.forall_mem_cons)
      simp [Item.texts, String.append_assoc]

theorem uniform_toKeys {items : List OrderItem}
    (each : ∀ e ∈ items.map (·.expression), Templated strict config schema e) :
    Uniform strict (fun strings => OrderItem.toKeys schema (OrderItem.refillEach strings items))
      scopes fun ts => ShapedEach strict (fun strings => OrderKey.texts config (ts strings))
        (∀ e ∈ items.map (·.expression), e.SignFree) := by
  induction items generalizing scopes with
  | nil => exact .pure mild (ShapedEach.nil.congr (fun _ => rfl) (by simp))
  | cons item rest inductionHypothesis =>
    obtain ⟨expression, ascending⟩ := item
    obtain ⟨first, others⟩ := List.forall_mem_cons.mp each
    simp only [OrderItem.refillEach, OrderItem.toKeys]
    refine (first.part .value 0 mild).bind fun t _ mild ofFirst => ?_
    refine ((inductionHypothesis mild others).under 1 fun _ spelled => spelled.under 1).bind ?_
    intro ts _ mild ofRest
    have ofKey : Shaped strict (fun strings => if ascending then (t strings).text config
        else (t strings).text config ++ " " ++ config.keyword "desc") expression.SignFree := by
      cases ascending with
      | true => exact ofFirst.shaped
      | false =>
        have direction : IsMild strict (" " ++ config.keyword "desc") :=
          isMild_blank.append (isMild_keyword config (by simp))
        exact (ofFirst.shaped.before (direction.separator (by simp))).of_eq fun _ => by
          simp [String.append_assoc]
    exact .pure mild ((ShapedEach.cons ofKey ofRest).congr (fun _ => rfl) List.forall_mem_cons)

end

/-! ## Queries -/

/-- The texts of the clauses of a query are templates. -/
structure SpelledClauses (strict : Prop) (config : Config) (q : Query)
    (clauses : Strings → ClauseTerms) : Prop where
  items : ShapedEach strict (fun strings => Item.texts config (clauses strings).1)
    (∀ e ∈ q.select.map (·.expression), e.SignFree)
  filter : ShapedEach strict (fun strings => Term.optionTexts config (clauses strings).2.1)
    (∀ e ∈ q.condition.toList, e.SignFree)
  groups : SpelledEach strict config (fun strings => (clauses strings).2.2.1)
    (∀ e ∈ q.groupBy, e.SignFree)
  having : ShapedEach strict (fun strings => Term.optionTexts config (clauses strings).2.2.2.1)
    (∀ e ∈ q.having.toList, e.SignFree)
  keys : ShapedEach strict (fun strings => OrderKey.texts config (clauses strings).2.2.2.2)
    (∀ e ∈ q.orderBy.map (·.expression), e.SignFree)

theorem conditionTexts_of_option (t : Option Term) :
    Condition.texts config (t.toList.map .term) = Term.optionTexts config t := by
  cases t <;> rfl

theorem uniform_toSelect {q : Query}
    (mild : scopes.Named (IsMild strict))
    (names : ∀ name ∈ schema.storedNames, IsMild strict name)
    (labels : ∀ item ∈ q.select, ∀ name ∈ item.label, IsMild strict name)
    (each : ∀ e ∈ q.clauses, Templated strict config schema e) :
    Uniform strict (fun strings => (q.refill strings).toSelect schema) scopes fun select =>
      Shaped strict (fun strings => (select strings).text config)
        (∀ e ∈ q.clauses, e.SignFree) := by
  obtain ⟨distinct, select, sources, condition, groupBy, having, orderBy⟩ := q
  simp only [Query.clauses, List.forall_mem_append] at each ⊢
  obtain ⟨⟨⟨⟨ofItems, ofFilter⟩, ofGroups⟩, ofHaving⟩, ofKeys⟩ := each
  simp only [Query.refill, Query.toSelect]
  split
  · exact .throw _
  · refine .get_bind (.lift_bind_const ?_)
    rintro ⟨scope, restrictions⟩ added
    obtain ⟨ofScope, ofRestrictions⟩ := named_of_addSources names (.empty _) added
    -- each clause has its contents below an address of its own
    refine (@Uniform.within _ _ _ _ _ (SpelledClauses strict config
      ⟨distinct, select, sources, condition, groupBy, having, orderBy⟩) mild ofScope
      fun mild => ?_).bind ?_
    · refine ((uniform_toItems mild labels ofItems).under 0 fun _ each => each.under 0).bind ?_
      intro items _ mild spelledItems
      refine ((uniform_toOption mild ofFilter).under 1 fun _ each => each.under 1).bind ?_
      intro filter _ mild spelledFilter
      refine ((uniform_toTerms mild ofGroups).under 2 fun _ each => each.under 2).bind ?_
      intro groups _ mild spelledGroups
      refine ((uniform_toOption mild ofHaving).under 3 fun _ each => each.under 3).bind ?_
      intro kept _ mild spelledHaving
      refine ((uniform_toKeys mild ofKeys).under 4 fun _ each => each.under 4).bind ?_
      intro keys _ mild spelledKeys
      exact .pure mild
        ⟨spelledItems, spelledFilter, spelledGroups, spelledHaving, spelledKeys⟩
    · rintro pairs _ mild ⟨inner, clauses, split, ofInner, spelled⟩
      have ofConditions := (spelledConditions_of_mild ofRestrictions).append
        (spelled.filter.congr (fun _ => conditionTexts_of_option _) Iff.rfl)
      have ofSelect := shaped_select distinct spelled.items ofInner.sources ofConditions
        spelled.groups spelled.having spelled.keys
      simp only [split]
      exact .pure mild (ofSelect.congr (fun _ => rfl) (by simp only [true_and, and_assoc]))

/-! ## Collections -/

/-- The conditions on the elements of a collection, the last of which compares a key with a
value. -/
theorem alike_memberConditions {t : Strings → Term} {a minus : Prop} {member : Option Row}
    (names : ∀ name ∈ schema.storedNames, IsMild strict name)
    (present : member.isSome)
    (spelled : Spelled strict config t a minus) :
    Alike (fun strings => memberConditions schema member (some (t strings)))
      (SpelledConditions strict config · a) := by
  obtain ⟨row, rfl⟩ := Option.isSome_iff_exists.mp present
  refine .bind_const fun restriction restricted => .bind_const fun key isKey => ?_
  have ofKept : ∀ condition ∈ restriction.toList.map Condition.restriction,
      condition.Named (IsMild strict) :=
    @named_of_memberConditions _ _ names (some row) _ (bind_eq_ok.mpr ⟨_, restricted, rfl⟩)
  have ofKey : IsMild strict (⟨row.name, key⟩ : ColumnRef).column :=
    named_of_requireKeyColumn names isKey
  have compared := (spelledConditions_of_mild ofKept).append
    (spelledConditions_hasValue ofKey spelled)
  exact .of_ok (compared.congr (fun _ => rfl) (by simp))

/-- A select over a collection. -/
theorem shaped_collectionSelect {item : Term} {scope : Scope}
    {conditions : Strings → List Condition} {a : Prop}
    (ofItem : Spelled strict config (fun _ => item) True False)
    (ofScope : scope.Named (IsMild strict))
    (ofConditions : SpelledConditions strict config conditions a) :
    Shaped strict (fun strings => (collectionSelect item scope (conditions strings)).text config)
      a := by
  have ofSelect : Shaped strict (fun strings => Select.text config
      ⟨false, [⟨item, none⟩], scope.sources, conditions strings, [], none, []⟩) _ :=
    shaped_select false (.singleton ofItem.shaped) ofScope.sources ofConditions .nil .nil .nil
  exact ofSelect.congr (fun _ => rfl) (by simp)

section

variable {select : Strings → Select} {a : Prop}

theorem spelled_subselect (shaped : Shaped strict (fun strings => (select strings).text config) a) :
    Spelled strict config (fun strings => .subselect (select strings)) a False :=
  .bracketed (fun _ => by simp [Term.text, String.append_assoc]) (shaped.before separator_closing)

theorem spelled_nonempty (shaped : Shaped strict (fun strings => (select strings).text config) a) :
    Spelled strict config (fun strings => .nonempty (select strings)) a False := by
  have opening : IsMild strict (config.keyword "exists" ++ "(") :=
    (isMild_keyword config (by simp)).append isMild_opening
  exact .of_opening opening (by simp) (fun _ => by simp [Term.text, String.append_assoc])
    (shaped.before separator_closing)

end

/-! ## Expressions -/

/-- The class of a row. -/
theorem spelled_classTagTerm (row : Row)
    (names : ∀ name ∈ schema.storedNames, IsMild strict name) :
    Spelled strict config (fun _ => classTagTerm schema row) True False := by
  unfold classTagTerm
  dsimp only
  split
  · exact spelled_constant rfl
  · next selector found =>
    have ofSelector : IsMild strict selector.column := by
      split at found
      · exact names _ (Schema.selector_mem_storedNames found)
      · cases found
    split
    · exact spelled_constant rfl
    · exact spelled_caseOf _ ofSelector

/-- Two operands one after the other. -/
theorem uniform_pair {left right : Expr} {role : Role} {operator : String}
    (mild : scopes.Named (IsMild strict))
    (between : Text.Separator strict (config.spaced operator).toList)
    (ofLeft : Templated strict config schema left)
    (ofRight : Templated strict config schema right) :
    Uniform strict (fun strings => do
      let l ← (left.refill (strings.under 0)).toTerm schema role
      let r ← (right.refill (strings.under 1)).toTerm schema role
      pure (Term.infixed operator l r)) scopes fun t =>
        Spelled strict config t (left.SignFree ∧ right.SignFree) False := by
  refine (ofLeft.part role 0 mild).bind fun l _ mild spelledLeft => ?_
  refine (ofRight.part role 1 mild).bind fun r _ mild spelledRight => ?_
  exact .pure mild (spelled_infixed between spelledLeft spelledRight)

@[simp]
theorem nullComparison?_refill (op : RelationalOp) (left right : Expr) (first second : Strings) :
    nullComparison? op (left.refill first) (right.refill second) = nullComparison? op left right := by
  simp [nullComparison?]

/-- A form without parts that is no negation. -/
theorem Spelled.leaf {e : Expr} {t : Strings → Term} {minus : Prop}
    (spelled : Spelled strict config t True minus)
    (noNegation : ¬e.DoublesSign)
    (written : e.isEmptyTest = false)
    (noParts : e.parts = []) : Spelled strict config t e.SignFree minus :=
  spelled.congr (iff_true_intro (Expr.signFree_of_leaf noNegation written noParts)) Iff.rfl

section

variable {left right operand element : Expr}

/-- A comparison with null is a test of the other operand. -/
theorem templated_relational (op : RelationalOp)
    (ofLeft : Templated strict config schema left)
    (ofRight : Templated strict config schema right) :
    Templated strict config schema (.relational op left right) := by
  intro role scopes mild
  have free : (Expr.relational op left right).SignFree ↔ _ := Expr.signFree_iff_pair id rfl rfl
  rw [free]
  simp only [Expr.refill, Expr.toTerm, nullComparison?_refill, Expr.isNullLiteral_refill]
  cases comparison : nullComparison? op left right with
  | none => exact uniform_pair mild (separator_relational op) ofLeft ofRight
  | some negated =>
    cases isNull : right.isNullLiteral with
    | true =>
      rw [and_iff_left (Expr.signFree_of_isNullLiteral isNull)]
      exact (ofLeft.part .plain 0 mild).bind fun t _ mild spelled =>
        .pure mild (spelled_nullTest negated spelled)
    | false =>
      have leftNull : left.isNullLiteral = true :=
        (isNullLiteral_of_nullComparison? comparison).resolve_right (by simp [isNull])
      rw [and_iff_right (Expr.signFree_of_isNullLiteral leftNull)]
      exact (ofRight.part .plain 1 mild).bind fun t _ mild spelled =>
        .pure mild (spelled_nullTest negated spelled)

theorem templated_call {function : String} {arguments : List Expr}
    (ofName : IsMild strict function)
    (each : ∀ e ∈ arguments, Templated strict config schema e) :
    Templated strict config schema (.call function arguments) := by
  intro role scopes mild
  have free : (Expr.call function arguments).SignFree ↔ ∀ part ∈ arguments, part.SignFree := by
    rw [Expr.signFree_iff_parts id rfl, Expr.parts_call]
  rw [free]
  refine (uniform_toArguments mild each).bind fun ts _ mild ofEach => ?_
  exact .pure mild (spelled_hostTyped role (spelled_call ofName ofEach))

/-- A test without candidates is a constant, whatever its operand. -/
theorem templated_oneOf {candidates : List Expr}
    (ofOperand : Templated strict config schema operand)
    (each : ∀ e ∈ candidates, Templated strict config schema e) :
    Templated strict config schema (.oneOf operand candidates) := by
  intro role scopes mild
  cases candidates with
  | nil =>
    have free : (Expr.oneOf operand []).SignFree := Expr.signFree_iff.mpr ⟨id, by rintro ⟨⟩⟩
    exact .pure mild ((spelled_truth false).congr (iff_true_intro free) Iff.rfl)
  | cons first rest =>
    have free : (Expr.oneOf operand (first :: rest)).SignFree ↔
        operand.SignFree ∧ ∀ part ∈ first :: rest, part.SignFree := by
      rw [Expr.signFree_iff_parts id rfl, Expr.parts_oneOf, List.forall_mem_cons]
    rw [free]
    refine (ofOperand.part .value 0 mild).bind fun t _ mild spelled => ?_
    refine ((uniform_toTerms mild each).under 1 fun _ each => each.under 1).bind ?_
    exact fun ts _ mild ofEach => .pure mild (spelled_oneOf spelled ofEach)

variable (names : ∀ name ∈ schema.storedNames, IsMild strict name)

include names

theorem templated_count (owner : List String) (collection : String) :
    Templated strict config schema (.count owner collection) := by
  intro role scopes mild
  refine .bind_const ?_
  rintro ⟨found, key⟩ later ran
  obtain ⟨mild, ofKey, ofCollection⟩ := named_of_resolveCollection names mild ran
  refine .get_bind (.lift_bind_const fun setup opened => ?_)
  obtain ⟨ofScope, ofConditions⟩ := named_of_membership names ofCollection ofKey opened
  refine .lift_bind_const fun kept conditioned => ?_
  have ofKept := named_of_memberConditions names conditioned
  have counted : Shaped strict (fun _ => (collectionSelect .rowCount setup.scope
      (setup.conditions ++ kept)).text config) True :=
    shaped_collectionSelect spelled_rowCount ofScope
      (spelledConditions_of_mild (List.forall_mem_append.mpr ⟨ofConditions, ofKept⟩))
  exact .pure mild ((spelled_subselect counted).leaf id rfl rfl)

/-- The element is a condition on the rows of the collection, or a value that one of them has. -/
theorem templated_contains (owner : List String) (collection : String)
    (ofElement : Templated strict config schema element) :
    Templated strict config schema (.contains owner collection element) := by
  intro role scopes mild
  rw [Expr.signFree_iff_part id rfl Expr.parts_contains]
  simp only [Expr.refill, Expr.toTerm, Expr.isBoolean_refill]
  refine .bind_const ?_
  rintro ⟨found, key⟩ later ran
  obtain ⟨mild, ofKey, ofCollection⟩ := named_of_resolveCollection names mild ran
  cases element.isBoolean with
  | true =>
    refine .get_bind (.lift_bind_const fun setup opened => ?_)
    obtain ⟨ofScope, ofConditions⟩ := named_of_membership names ofCollection ofKey opened
    refine .lift_bind_const fun kept conditioned => ?_
    have ofKept := named_of_memberConditions names conditioned
    refine (Uniform.within mild ofScope fun mild => ofElement.part .plain 0 mild).bind ?_
    rintro pairs _ mild ⟨inner, test, split, ofInner, spelled⟩
    simp only [split]
    have tested := shaped_collectionSelect spelled_allColumns ofInner
      ((spelledConditions_of_mild (List.forall_mem_append.mpr ⟨ofConditions, ofKept⟩)).append
        (spelledConditions_term spelled))
    exact .pure mild ((spelled_nonempty tested).congr (by simp) Iff.rfl)
  | false =>
    refine (ofElement.part .value 0 mild).bind fun wanted _ mild spelled => ?_
    refine .get_bind (.lift_bind_const fun setup opened => ?_)
    obtain ⟨ofScope, ofConditions⟩ := named_of_membership names ofCollection ofKey opened
    have present := (valid_of_membership opened).2 rfl
    refine .lift_bind (alike_memberConditions names present spelled) fun kept ofKept => ?_
    have compared := shaped_collectionSelect spelled_allColumns ofScope
      ((spelledConditions_of_mild ofConditions).append ofKept)
    exact .pure mild ((spelled_nonempty compared).congr (by simp) Iff.rfl)

end

theorem templated (e : Expr)
    (names : ∀ name ∈ schema.storedNames, IsMild strict name)
    (clean : e.Clean strict) : Templated strict config schema e := by
  induction e using Expr.parts_induction with
  | step e each =>
    obtain ⟨⟨noRaw, ofNames⟩, ofParts⟩ := Expr.everywhere_iff.mp clean
    replace each : ∀ part ∈ e.parts, Templated strict config schema part :=
      fun part member => each part member (ofParts part member)
    have labels (q : Query) (same : e.ownNames = q.select.filterMap (·.label)) :
        ∀ item ∈ q.select, ∀ name ∈ item.label, IsMild strict name :=
      fun item isItem name isLabel =>
        ofNames name (same ▸ List.mem_filterMap.mpr ⟨item, isItem, isLabel⟩)
    intro role scopes mild
    cases e with
    | raw _ => cases noRaw
    | literal value => exact .pure mild ((spelled_literal value).leaf id rfl rfl)
    | parameter index modifier =>
      exact .pure mild ((spelled_hostTyped role (spelled_parameter index)).leaf id rfl rfl)
    | boolean value => exact .pure mild ((spelled_boolean role value).leaf id rfl rfl)
    | path p =>
      refine .bind_const fun column later ran => ?_
      obtain ⟨mild, ofColumn⟩ := named_of_resolveColumn names mild ran
      exact .pure mild ((spelled_hostTyped role (spelled_column ofColumn)).leaf id rfl rfl)
    | asterisk owner =>
      refine .bind_const fun row later ran => ?_
      exact .pure (named_of_resolveRow names mild ran) ((spelled_rowOf row.name).leaf id rfl rfl)
    | classTag owner =>
      refine .bind_const fun row later ran => ?_
      exact .pure (named_of_resolveRow names mild ran)
        ((spelled_classTagTerm row names).leaf id rfl rfl)
    | binary op left right =>
      have free : (Expr.binary op left right).SignFree ↔ _ := Expr.signFree_iff_pair id rfl rfl
      rw [free]
      exact uniform_pair mild (separator_arithmetic op) (each left List.mem_cons_self)
        (each right (List.mem_cons_of_mem _ List.mem_cons_self))
    | and left right =>
      have free : (Expr.and left right).SignFree ↔ _ := Expr.signFree_iff_pair id rfl rfl
      rw [free]
      exact uniform_pair mild (separator_spaced config "and" (by simp))
        (each left List.mem_cons_self) (each right (List.mem_cons_of_mem _ List.mem_cons_self))
    | or left right =>
      have free : (Expr.or left right).SignFree ↔ _ := Expr.signFree_iff_pair id rfl rfl
      rw [free]
      exact uniform_pair mild (separator_spaced config "or" (by simp))
        (each left List.mem_cons_self) (each right (List.mem_cons_of_mem _ List.mem_cons_self))
    | negate operand =>
      rw [Expr.signFree_negate_iff]
      refine ((each operand List.mem_cons_self).part .value 0 mild).bind fun t _ mild spelled => ?_
      exact .pure mild (spelled_negate spelled)
    | not operand =>
      have free : (Expr.not operand).SignFree ↔ _ := Expr.signFree_iff_part id rfl rfl
      rw [free]
      refine ((each operand List.mem_cons_self).part .condition 0 mild).bind ?_
      exact fun t _ mild spelled => .pure mild (spelled_not spelled)
    | nullTest operand negated =>
      have free : (Expr.nullTest operand negated).SignFree ↔ _ := Expr.signFree_iff_part id rfl rfl
      rw [free]
      refine ((each operand List.mem_cons_self).part .plain 0 mild).bind ?_
      exact fun t _ mild spelled => .pure mild (spelled_nullTest negated spelled)
    | relational op left right =>
      exact templated_relational op (each left List.mem_cons_self)
        (each right (List.mem_cons_of_mem _ List.mem_cons_self)) role scopes mild
    | call function arguments =>
      rw [Expr.parts_call] at each
      exact templated_call (ofNames function List.mem_cons_self) each role scopes mild
    | oneOf operand candidates =>
      rw [Expr.parts_oneOf] at each
      obtain ⟨ofOperand, ofCandidates⟩ := List.forall_mem_cons.mp each
      exact templated_oneOf ofOperand ofCandidates role scopes mild
    | query q =>
      have free : (Expr.query q).SignFree ↔ ∀ part ∈ q.clauses, part.SignFree :=
        Expr.signFree_iff_parts id rfl
      rw [free]
      refine (uniform_toSelect mild names (labels q rfl) each).bind fun select _ mild shaped => ?_
      exact .pure mild (spelled_subselect shaped)
    | nonempty q =>
      have free : (Expr.nonempty q).SignFree ↔ ∀ part ∈ q.clauses, part.SignFree :=
        Expr.signFree_iff_parts id rfl
      rw [free]
      refine (uniform_toSelect mild names (labels q rfl) each).bind fun select _ mild shaped => ?_
      exact .pure mild (spelled_nonempty shaped)
    | count owner collection => exact templated_count names owner collection role scopes mild
    | contains owner collection element =>
      have ofElement := each element (Expr.parts_contains ▸ List.mem_cons_self)
      exact templated_contains names owner collection ofElement role scopes mild

/-- Queries that differ in the contents of literals fail alike, or their texts are a template. -/
theorem alike_toSql {q : Query}
    (names : ∀ name ∈ schema.storedNames, IsMild strict name)
    (clean : (Expr.query q).Clean strict) :
    Alike (fun strings => schema.toSql config (q.refill strings)) fun texts =>
      Shaped strict texts (Expr.query q).SignFree := by
  obtain ⟨⟨-, ofNames⟩, ofParts⟩ := Expr.everywhere_iff.mp clean
  have labels : ∀ item ∈ q.select, ∀ name ∈ item.label, IsMild strict name :=
    fun item isItem name isLabel => ofNames name (List.mem_filterMap.mpr ⟨item, isItem, isLabel⟩)
  have uniform := @uniform_toSelect strict config schema [] q (List.forall_mem_nil _) names labels
    fun e member => templated e names (ofParts e member)
  have free : (Expr.query q).SignFree ↔ ∀ e ∈ q.clauses, e.SignFree :=
    Expr.signFree_iff_parts id rfl
  rw [free]
  simp only [Schema.toSql, Schema.toSelect, bind_assoc]
  refine Alike.bind uniform ?_
  rintro results ⟨selects, later, split, -, shaped⟩
  simp only [split]
  exact .of_ok shaped

end Sql

end ObjectQuery
