import ObjectQuery.Proofs.Sql.Mentions
import ObjectQuery.Proofs.Text.Fragments

/-!
Contract: the text of a statement as a row of fragments.

Owns:
- `Term.fragments` and `Select.fragments`, which are written as the text;
- `Term.parameters` and `Select.parameters`, the placeholders in the order of the text, and that
  those of a term are those of its parts one after the other.

Does not own: which terms an expression is translated into.
-/

namespace ObjectQuery.Sql

open Text (Fragments)
open Text.Fragments (plain joined written)

/-- How a statement spells its parameters. -/
def Config.spell (config : Config) (index : Nat) (_ : Option String) : String :=
  config.parameter index

/-- A clause behind a keyword as fragments, if it has any content. -/
def clauseFragments
    (config : Config)
    (word : String)
    (each : List Fragments)
    (separator : String) : Fragments :=
  if each.isEmpty then [] else plain (config.spaced word) ++ joined separator each

mutual

/-- The text of a term as fragments. -/
def Term.fragments (config : Config) : Term → Fragments
  | .literal value => plain (config.literal value)
  | .truth value => plain (truthText value)
  | .parameter index => [.parameter index none]
  | .raw source => plain source
  | .column ref => plain (ref.text config)
  | .rowOf table => plain (config.identifier table.text ++ ".*")
  | .allColumns => plain "*"
  | .rowCount => plain (config.keyword "count" ++ "(*)")
  | .call function arguments =>
    plain (function ++ "(") ++ joined ", " (Term.fragmentsEach config arguments) ++ plain ")"
  | .negate operand => plain "(-" ++ operand.fragments config ++ plain ")"
  | .infixed operator left right =>
    plain "(" ++ left.fragments config ++ plain (config.spaced operator) ++ right.fragments config
      ++ plain ")"
  | .not operand =>
    plain ("(" ++ config.keyword "not" ++ " ") ++ operand.fragments config ++ plain ")"
  | .isTrue operand =>
    plain "(" ++ operand.fragments config ++ plain (" = " ++ config.literal (.boolean true) ++ ")")
  | .nullTest operand negated =>
    plain "(" ++ operand.fragments config
      ++ plain (" " ++ config.keyword (if negated then "is not null" else "is null") ++ ")")
  | .oneOf operand candidates =>
    plain "(" ++ operand.fragments config ++ plain (config.spaced "in" ++ "(")
      ++ joined ", " (Term.fragmentsEach config candidates) ++ plain "))"
  | .caseOf selector branches =>
    plain ("(" ++ config.keyword "case" ++ " " ++ selector.text config
      ++ branchesText config branches ++ " " ++ config.keyword "end" ++ ")")
  | .subselect select => plain "(" ++ select.fragments config ++ plain ")"
  | .nonempty select =>
    plain (config.keyword "exists" ++ "(") ++ select.fragments config ++ plain ")"

/-- The texts of several terms as fragments. -/
def Term.fragmentsEach (config : Config) : List Term → List Fragments
  | [] => []
  | t :: rest => t.fragments config :: Term.fragmentsEach config rest

/-- The text of a term as fragments, if it is there. -/
def Term.optionFragments (config : Config) : Option Term → List Fragments
  | none => []
  | some t => [t.fragments config]

/-- The texts of conjuncts as fragments. -/
def Condition.fragmentsEach (config : Config) : List Condition → List Fragments
  | [] => []
  | .restriction restriction :: rest =>
    plain (restriction.text config) :: Condition.fragmentsEach config rest
  | .sameColumn left right :: rest =>
    plain (left.text config ++ " = " ++ right.text config) :: Condition.fragmentsEach config rest
  | .hasValue left right :: rest =>
    (plain (left.text config ++ " = ") ++ right.fragments config)
      :: Condition.fragmentsEach config rest
  | .term t :: rest => t.fragments config :: Condition.fragmentsEach config rest

/-- The texts of the select list as fragments. -/
def Item.fragmentsEach (config : Config) : List Item → List Fragments
  | [] => []
  | ⟨t, none⟩ :: rest => t.fragments config :: Item.fragmentsEach config rest
  | ⟨t, some label⟩ :: rest =>
    (t.fragments config ++ plain (config.spaced "as" ++ config.identifier label))
      :: Item.fragmentsEach config rest

/-- The texts of the order-by list as fragments. -/
def OrderKey.fragmentsEach (config : Config) : List OrderKey → List Fragments
  | [] => []
  | ⟨t, ascending⟩ :: rest =>
    (t.fragments config ++ plain (if ascending then "" else " " ++ config.keyword "desc"))
      :: OrderKey.fragmentsEach config rest

/-- The text of a select statement as fragments. -/
def Select.fragments (config : Config) : Select → Fragments
  | ⟨distinct, items, sources, conditions, groupBy, having, orderBy⟩ =>
    plain (config.keyword "select" ++ " "
        ++ (if distinct then config.keyword "distinct" ++ " " else ""))
      ++ joined ", " (Item.fragmentsEach config items)
      ++ plain (config.spaced "from") ++ plain (Text.commaList (sources.map (·.text config)))
      ++ clauseFragments config "where" (Condition.fragmentsEach config conditions)
        (config.spaced "and")
      ++ clauseFragments config "group by" (Term.fragmentsEach config groupBy) ", "
      ++ clauseFragments config "having" (Term.optionFragments config having) ""
      ++ clauseFragments config "order by" (OrderKey.fragmentsEach config orderBy) ", "

end

/-! ## The text -/

section

variable (config : Config)

theorem written_clauseFragments (word : String) (each : List Fragments) (separator : String) :
    written config.spell (clauseFragments config word each separator) =
      clauseText config word (each.map (written config.spell)) separator := by
  cases each with
  | nil => rfl
  | cons first rest => simp [clauseFragments, clauseText]

mutual

/-- The fragments of a term are written as its text. -/
theorem Term.written_fragments :
    ∀ t : Term, written config.spell (t.fragments config) = t.text config
  | .literal _ | .truth _ | .raw _ | .column _ | .rowOf _ | .allColumns | .rowCount
  | .caseOf .. => by
    simp [Term.fragments, Term.text]
  | .parameter _ => by simp [Term.fragments, Term.text, Config.spell]
  | .infixed _ left right => by
    simp [Term.fragments, Term.text, left.written_fragments, right.written_fragments,
      String.append_assoc]
  | .negate operand | .not operand | .isTrue operand | .nullTest operand _ => by
    simp [Term.fragments, Term.text, operand.written_fragments, String.append_assoc]
  | .call _ arguments => by
    simp [Term.fragments, Term.text, Text.commaList, Term.written_fragmentsEach arguments,
      String.append_assoc]
  | .oneOf operand candidates => by
    simp [Term.fragments, Term.text, Text.commaList, operand.written_fragments,
      Term.written_fragmentsEach candidates, String.append_assoc]
  | .subselect select | .nonempty select => by
    simp [Term.fragments, Term.text, select.written_fragments, String.append_assoc]

theorem Term.written_fragmentsEach :
    ∀ ts : List Term,
      (Term.fragmentsEach config ts).map (written config.spell) = Term.texts config ts
  | [] => rfl
  | t :: rest => by
    rw [Term.fragmentsEach, List.map_cons, t.written_fragments, Term.written_fragmentsEach rest,
      Term.texts]

theorem Term.written_optionFragments :
    ∀ t : Option Term,
      (Term.optionFragments config t).map (written config.spell) = Term.optionTexts config t
  | none => rfl
  | some t => by
    rw [Term.optionFragments, List.map_singleton, t.written_fragments, Term.optionTexts]

theorem Condition.written_fragmentsEach :
    ∀ conditions : List Condition,
      (Condition.fragmentsEach config conditions).map (written config.spell) =
        Condition.texts config conditions
  | [] => rfl
  | .restriction _ :: rest | .sameColumn .. :: rest => by
    rw [Condition.fragmentsEach, List.map_cons, Fragments.written_plain,
      Condition.written_fragmentsEach rest, Condition.texts]
  | .hasValue _ right :: rest => by
    rw [Condition.fragmentsEach, List.map_cons, Fragments.written_append, Fragments.written_plain,
      right.written_fragments, Condition.written_fragmentsEach rest, Condition.texts]
  | .term t :: rest => by
    rw [Condition.fragmentsEach, List.map_cons, t.written_fragments,
      Condition.written_fragmentsEach rest, Condition.texts]

theorem Item.written_fragmentsEach :
    ∀ items : List Item,
      (Item.fragmentsEach config items).map (written config.spell) = Item.texts config items
  | [] => rfl
  | ⟨t, none⟩ :: rest => by
    rw [Item.fragmentsEach, List.map_cons, t.written_fragments, Item.written_fragmentsEach rest,
      Item.texts]
  | ⟨t, some _⟩ :: rest => by
    rw [Item.fragmentsEach, List.map_cons, Fragments.written_append, Fragments.written_plain,
      t.written_fragments, Item.written_fragmentsEach rest, Item.texts, String.append_assoc]

theorem OrderKey.written_fragmentsEach :
    ∀ keys : List OrderKey,
      (OrderKey.fragmentsEach config keys).map (written config.spell) = OrderKey.texts config keys
  | [] => rfl
  | ⟨t, ascending⟩ :: rest => by
    rw [OrderKey.fragmentsEach, List.map_cons, Fragments.written_append, Fragments.written_plain,
      t.written_fragments, OrderKey.written_fragmentsEach rest, OrderKey.texts]
    cases ascending <;> simp [String.append_assoc]

/-- The fragments of a select statement are written as its text. -/
theorem Select.written_fragments :
    ∀ select : Select, written config.spell (select.fragments config) = select.text config
  | ⟨_, items, _, conditions, groupBy, having, orderBy⟩ => by
    simp only [Select.fragments, Select.text, Text.commaList, Fragments.written_append,
      Fragments.written_plain, Fragments.written_joined, written_clauseFragments,
      Item.written_fragmentsEach items, Condition.written_fragmentsEach conditions,
      Term.written_fragmentsEach groupBy, Term.written_optionFragments having,
      OrderKey.written_fragmentsEach orderBy]

end

end

/-! ## The parameters -/

/-- The placeholders of a term in the order of its text. -/
def Term.parameters (config : Config) (t : Term) : List Nat :=
  (t.fragments config).parameters

/-- The placeholders of a select statement in the order of its text. -/
def Select.parameters (config : Config) (select : Select) : List Nat :=
  (select.fragments config).parameters

/-- The placeholder that a term is. -/
def Term.ownParameters : Term → List Nat
  | .parameter index => [index]
  | _ => []

/-- The terms directly in a term, those of a select statement included. -/
def Term.parts : Term → List Term
  | .call _ arguments => arguments
  | .infixed _ left right => [left, right]
  | .negate operand | .not operand | .isTrue operand | .nullTest operand _ => [operand]
  | .oneOf operand candidates => operand :: candidates
  | .subselect select | .nonempty select => select.terms
  | .literal _ | .truth _ | .parameter _ | .raw _ | .column _ | .rowOf _ | .allColumns | .rowCount
  | .caseOf .. => []

variable {config : Config}

theorem parameters_clauseFragments (word : String) (each : List Fragments) (separator : String) :
    (clauseFragments config word each separator).parameters =
      each.flatMap Fragments.parameters := by
  cases each with
  | nil => rfl
  | cons first rest => simp [clauseFragments]

theorem Term.parameters_fragmentsEach (ts : List Term) :
    (Term.fragmentsEach config ts).flatMap Fragments.parameters =
      ts.flatMap (·.parameters config) := by
  induction ts with
  | nil => rfl
  | cons t rest inductionHypothesis =>
    rw [Term.fragmentsEach, List.flatMap_cons, inductionHypothesis]
    rfl

theorem Term.parameters_optionFragments (t : Option Term) :
    (Term.optionFragments config t).flatMap Fragments.parameters =
      t.toList.flatMap (·.parameters config) := by
  cases t <;> rfl

theorem Condition.parameters_fragmentsEach (conditions : List Condition) :
    (Condition.fragmentsEach config conditions).flatMap Fragments.parameters =
      (conditions.flatMap Condition.terms).flatMap (·.parameters config) := by
  induction conditions with
  | nil => rfl
  | cons condition rest inductionHypothesis =>
    cases condition <;>
      simp [Condition.fragmentsEach, Condition.terms, Term.parameters, inductionHypothesis]

theorem Item.parameters_fragmentsEach (items : List Item) :
    (Item.fragmentsEach config items).flatMap Fragments.parameters =
      (items.map (·.term)).flatMap (·.parameters config) := by
  induction items with
  | nil => rfl
  | cons item rest inductionHypothesis =>
    obtain ⟨t, _ | label⟩ := item <;>
      simp [Item.fragmentsEach, Term.parameters, inductionHypothesis]

theorem OrderKey.parameters_fragmentsEach (keys : List OrderKey) :
    (OrderKey.fragmentsEach config keys).flatMap Fragments.parameters =
      (keys.map (·.term)).flatMap (·.parameters config) := by
  induction keys with
  | nil => rfl
  | cons key rest inductionHypothesis =>
    obtain ⟨t, ascending⟩ := key
    simp [OrderKey.fragmentsEach, Term.parameters, inductionHypothesis]

/-- The clauses of a select statement stand in its text one after the other, and the from list has
no parameters. -/
theorem Select.parameters_eq_flatMap (select : Select) :
    select.parameters config = select.terms.flatMap (·.parameters config) := by
  obtain ⟨distinct, items, sources, conditions, groupBy, having, orderBy⟩ := select
  simp only [Select.parameters, Select.fragments, Select.terms, Fragments.parameters_append,
    Fragments.parameters_plain, Fragments.parameters_joined, parameters_clauseFragments,
    Item.parameters_fragmentsEach, Condition.parameters_fragmentsEach,
    Term.parameters_fragmentsEach, Term.parameters_optionFragments,
    OrderKey.parameters_fragmentsEach, List.flatMap_append, List.nil_append, List.append_nil]

@[simp]
theorem Term.parameters_subselect (select : Select) :
    (Term.subselect select).parameters config = select.parameters config := by
  simp [Term.parameters, Term.fragments, Select.parameters]

@[simp]
theorem Term.parameters_nonempty (select : Select) :
    (Term.nonempty select).parameters config = select.parameters config := by
  simp [Term.parameters, Term.fragments, Select.parameters]

/-- The parts of a term stand in its text one after the other. -/
theorem Term.parameters_eq_flatMap (t : Term) :
    t.parameters config = t.ownParameters ++ t.parts.flatMap (·.parameters config) := by
  cases t with
  | literal _ | truth _ | raw _ | column _ | rowOf _ | allColumns | rowCount | caseOf _ _
  | parameter _ => rfl
  | infixed _ _ _ | negate _ | not _ | isTrue _ | nullTest _ _ =>
    simp [Term.parameters, Term.fragments, Term.ownParameters, Term.parts]
  | call _ _ | oneOf _ _ =>
    simp [Term.parameters, Term.fragments, Term.ownParameters, Term.parts,
      Term.parameters_fragmentsEach]
  | subselect select => exact (Term.parameters_subselect select).trans select.parameters_eq_flatMap
  | nonempty select => exact (Term.parameters_nonempty select).trans select.parameters_eq_flatMap

end ObjectQuery.Sql
