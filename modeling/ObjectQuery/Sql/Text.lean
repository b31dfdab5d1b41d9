import ObjectQuery.Sql.Config
import ObjectQuery.Sql.Select
import ObjectQuery.Text.Lists

/-!
Contract: SQL select statements as text.

Every composite term stands in brackets of its own.

Owns: `Term.text`, `Condition.text`, `Select.text`.
-/

namespace ObjectQuery.Sql

/-- A column. -/
def ColumnRef.text (config : Config) (ref : ColumnRef) : String :=
  config.column ref.table.text ref.column

/-- A condition that always holds, or never. -/
def truthText (value : Bool) : String :=
  if value then "(1=1)" else "(1=0)"

/-- A restriction of rows by their selector. -/
def Restriction.text (config : Config) (restriction : Restriction) : String :=
  if restriction.values.isEmpty then
    truthText false
  else
    restriction.selector.text config ++ " " ++ config.keyword "in" ++ " ("
      ++ Text.commaList (restriction.values.map config.literal) ++ ")"

/-- A join with its condition. -/
def Join.text (config : Config) (join : Join) : String :=
  config.join .leftOuter join.table join.name.text (join.owner.text config)
    ((⟨join.name, join.key⟩ : ColumnRef).text config)
    (join.restriction.map (·.text config))

/-- A table of the from list with its joins. -/
def Source.text (config : Config) (source : Source) : String :=
  config.table source.table source.name.text ++ String.join (source.joins.map (·.text config))

/-- The branches of a case distinction. -/
def branchesText (config : Config) (branches : List (Value × String)) : String :=
  String.join (branches.map fun (value, name) =>
    " " ++ config.keyword "when" ++ " " ++ config.literal value ++ " " ++ config.keyword "then"
      ++ " " ++ config.literal (.string name))

/-- A keyword between blanks. -/
def Config.spaced (config : Config) (word : String) : String :=
  " " ++ config.keyword word ++ " "

/-- A clause behind a keyword, if it has any content. -/
def clauseText (config : Config) (word : String) (texts : List String) (separator : String) :
    String :=
  if texts.isEmpty then "" else config.spaced word ++ separator.intercalate texts

mutual

/-- The text of a term. -/
def Term.text (config : Config) : Term → String
  | .literal value => config.literal value
  | .truth value => truthText value
  | .parameter index => config.parameter index
  | .raw source => source
  | .column ref => ref.text config
  | .rowOf table => config.identifier table.text ++ ".*"
  | .allColumns => "*"
  | .rowCount => config.keyword "count" ++ "(*)"
  | .call function arguments =>
    function ++ "(" ++ Text.commaList (Term.texts config arguments) ++ ")"
  | .negate operand => "(-" ++ operand.text config ++ ")"
  | .infixed operator left right =>
    "(" ++ left.text config ++ config.spaced operator ++ right.text config ++ ")"
  | .not operand => "(" ++ config.keyword "not" ++ " " ++ operand.text config ++ ")"
  | .isTrue operand =>
    "(" ++ operand.text config ++ " = " ++ config.literal (.boolean true) ++ ")"
  | .nullTest operand negated =>
    "(" ++ operand.text config ++ " "
      ++ config.keyword (if negated then "is not null" else "is null") ++ ")"
  | .oneOf operand candidates =>
    "(" ++ operand.text config ++ config.spaced "in" ++ "("
      ++ Text.commaList (Term.texts config candidates) ++ "))"
  | .caseOf selector branches =>
    "(" ++ config.keyword "case" ++ " " ++ selector.text config ++ branchesText config branches
      ++ " " ++ config.keyword "end" ++ ")"
  | .subselect select => "(" ++ select.text config ++ ")"
  | .nonempty select => config.keyword "exists" ++ "(" ++ select.text config ++ ")"

/-- The texts of several terms. -/
def Term.texts (config : Config) : List Term → List String
  | [] => []
  | t :: rest => t.text config :: Term.texts config rest

/-- The text of a term, if it is there. -/
def Term.optionTexts (config : Config) : Option Term → List String
  | none => []
  | some t => [t.text config]

/-- The texts of conjuncts. -/
def Condition.texts (config : Config) : List Condition → List String
  | [] => []
  | .restriction restriction :: rest => restriction.text config :: Condition.texts config rest
  | .sameColumn left right :: rest =>
    (left.text config ++ " = " ++ right.text config) :: Condition.texts config rest
  | .hasValue left right :: rest =>
    (left.text config ++ " = " ++ right.text config) :: Condition.texts config rest
  | .term t :: rest => t.text config :: Condition.texts config rest

/-- The texts of the select list. -/
def Item.texts (config : Config) : List Item → List String
  | [] => []
  | ⟨t, none⟩ :: rest => t.text config :: Item.texts config rest
  | ⟨t, some label⟩ :: rest =>
    (t.text config ++ config.spaced "as" ++ config.identifier label) :: Item.texts config rest

/-- The texts of the order-by list. -/
def OrderKey.texts (config : Config) : List OrderKey → List String
  | [] => []
  | ⟨t, ascending⟩ :: rest =>
    (if ascending then t.text config else t.text config ++ " " ++ config.keyword "desc")
      :: OrderKey.texts config rest

/-- The text of a select statement. -/
def Select.text (config : Config) : Select → String
  | ⟨distinct, items, sources, conditions, groupBy, having, orderBy⟩ =>
    config.keyword "select" ++ " " ++ (if distinct then config.keyword "distinct" ++ " " else "")
      ++ Text.commaList (Item.texts config items)
      ++ config.spaced "from" ++ Text.commaList (sources.map (·.text config))
      ++ clauseText config "where" (Condition.texts config conditions) (config.spaced "and")
      ++ clauseText config "group by" (Term.texts config groupBy) ", "
      ++ clauseText config "having" (Term.optionTexts config having) ""
      ++ clauseText config "order by" (OrderKey.texts config orderBy) ", "

end

end ObjectQuery.Sql
