import ObjectQuery.Sql.Text

/-!
Contract: the texts of lists and of composite terms.

Owns:
- `Condition.text`, `Item.text` and `OrderKey.text`, and that lists are written one by one;
- `Join.text_eq`, a join with its condition in brackets;
- `Term.bracketed?`, what stands in the brackets of a composite term and in front of them.

Does not own: what the texts have in common.
-/

namespace ObjectQuery.Sql

variable (config : Config)

/-- The text of a conjunct. -/
def Condition.text : Condition → String
  | .restriction kept => kept.text config
  | .sameColumn left right => left.text config ++ " = " ++ right.text config
  | .hasValue left right => left.text config ++ " = " ++ right.text config
  | .term t => t.text config

/-- The text of an item of the select list. -/
def Item.text (item : Item) : String :=
  match item.label with
  | none => item.term.text config
  | some label => item.term.text config ++ config.spaced "as" ++ config.identifier label

/-- The text of an item of the order-by list. -/
def OrderKey.text (key : OrderKey) : String :=
  if key.ascending then key.term.text config
  else key.term.text config ++ " " ++ config.keyword "desc"

/-- What the `on` condition of a join says beyond the equality of two columns. -/
def Join.further (join : Join) : String :=
  match join.restriction with
  | none => ""
  | some kept => config.spaced "and" ++ kept.text config

/-- A join is a keyword, a table and a condition in brackets. -/
theorem Join.text_eq (join : Join) :
    join.text config =
      config.spaced JoinKind.leftOuter.keyword ++ (config.table join.table join.name.text
        ++ (config.spaced "on" ++ ("(" ++ (join.owner.text config ++ (" = "
          ++ ((⟨join.name, join.key⟩ : ColumnRef).text config ++ join.further config))) ++ ")"))) := by
  obtain ⟨table, name, owner, key, kept?⟩ := join
  have opening : " (" = " " ++ "(" := rfl
  -- the equations of `Config.join` by its cases take long to derive
  delta Join.text Config.join
  cases kept? <;>
    simp only [Join.further, Config.spaced, opening, String.append_assoc, String.append_empty,
      Option.map_none, Option.map_some]

theorem Term.texts_eq_map (terms : List Term) :
    Term.texts config terms = terms.map (·.text config) := by
  induction terms with
  | nil => rfl
  | cons t rest inductionHypothesis => rw [Term.texts, inductionHypothesis, List.map_cons]

theorem Term.optionTexts_eq_map (t : Option Term) :
    Term.optionTexts config t = t.toList.map (·.text config) := by
  cases t <;> rfl

theorem Condition.texts_eq_map (conditions : List Condition) :
    Condition.texts config conditions = conditions.map (·.text config) := by
  induction conditions with
  | nil => rfl
  | cons condition rest inductionHypothesis =>
    cases condition <;> rw [Condition.texts, inductionHypothesis, List.map_cons] <;> rfl

theorem Item.texts_eq_map (items : List Item) :
    Item.texts config items = items.map (·.text config) := by
  induction items with
  | nil => rfl
  | cons item rest inductionHypothesis =>
    obtain ⟨t, _ | label⟩ := item <;> rw [Item.texts, inductionHypothesis, List.map_cons] <;> rfl

theorem OrderKey.texts_eq_map (keys : List OrderKey) :
    OrderKey.texts config keys = keys.map (·.text config) := by
  induction keys with
  | nil => rfl
  | cons key rest inductionHypothesis =>
    obtain ⟨t, ascending⟩ := key
    rw [OrderKey.texts, inductionHypothesis, List.map_cons]
    rfl

/-- Composite terms end in brackets around all but the name in front: that name and the content of
the brackets. -/
def Term.bracketed? : Term → Option (String × String)
  | .truth value => some ("", if value then "1=1" else "1=0")
  | .rowCount => some (config.keyword "count", "*")
  | .call function arguments =>
    some (function, Text.commaList (arguments.map (·.text config)))
  | .negate operand => some ("", "-" ++ operand.text config)
  | .infixed operator left right =>
    some ("", left.text config ++ config.spaced operator ++ right.text config)
  | .not operand => some ("", config.keyword "not" ++ " " ++ operand.text config)
  | .isTrue operand => some ("", operand.text config ++ " = " ++ config.literal (.boolean true))
  | .nullTest operand negated =>
    some ("", operand.text config ++ " "
      ++ config.keyword (if negated then "is not null" else "is null"))
  | .oneOf operand candidates =>
    some ("", operand.text config ++ config.spaced "in"
      ++ ("(" ++ Text.commaList (candidates.map (·.text config)) ++ ")"))
  | .caseOf selector branches =>
    some ("", config.keyword "case" ++ " " ++ selector.text config ++ branchesText config branches
      ++ " " ++ config.keyword "end")
  | .subselect select => some ("", select.text config)
  | .nonempty select => some (config.keyword "exists", select.text config)
  | .literal _ | .parameter _ | .raw _ | .column _ | .rowOf _ | .allColumns => none

/-- What stands in brackets is the text of the term but for the name in front. -/
theorem Term.text_of_bracketed? {config : Config} {t : Term} {head content : String}
    (composite : t.bracketed? config = some (head, content)) :
    t.text config = head ++ ("(" ++ content ++ ")") := by
  have minus : "(-" = "(" ++ "-" := rfl
  have twice : "))" = ")" ++ ")" := rfl
  have counted : "(*)" = "(" ++ "*" ++ ")" := rfl
  cases t with
  | literal _ | parameter _ | raw _ | column _ | rowOf _ | allColumns => cases composite
  | truth value =>
    cases value <;> obtain ⟨rfl, rfl⟩ := Prod.mk.inj (Option.some.inj composite) <;> rfl
  | _ =>
    obtain ⟨rfl, rfl⟩ := Prod.mk.inj (Option.some.inj composite)
    simp only [Term.text, Term.texts_eq_map, minus, twice, counted, String.append_assoc,
      String.empty_append]

end ObjectQuery.Sql
