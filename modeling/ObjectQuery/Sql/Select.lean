import ObjectQuery.Value

/-!
Contract: SQL select statements as data.

Owns:
- `RowAlias`, the name that a table goes by within a statement;
- `Term`, `Condition` and `Select`, which contain one another;
- the tables of a from list with their joins and restrictions.

Does not own: spelling, and how statements come about.
-/

namespace ObjectQuery.Sql

/-- The name of a table within a statement: how deep the select that declares it is nested, and its
number among the tables of that select. -/
structure RowAlias where
  depth : Nat
  number : Nat
deriving DecidableEq, Repr

/-- The letters of the outermost selects. -/
def RowAlias.letters : List String := ["t", "u", "v", "w", "x", "y", "z"]

/-- What the names of the tables of a select begin with: a letter of its own while there are
letters. -/
def RowAlias.stem (depth : Nat) : String :=
  match RowAlias.letters[depth]? with
  | some letter => letter
  | none => "s" ++ toString depth ++ "_"

/-- The written name. -/
def RowAlias.text (name : RowAlias) : String :=
  RowAlias.stem name.depth ++ toString name.number

/-- A column of a table. -/
structure ColumnRef where
  table : RowAlias
  column : String
deriving DecidableEq, Repr

/-- Keeps the rows whose selector column has one of the values; with no values it keeps none. -/
structure Restriction where
  selector : ColumnRef
  values : List Value

/-- A table that is joined for the sake of a reference: `owner` is the column that holds it, in a
table that is declared earlier, and `key` the column of the joined table. -/
structure Join where
  table : String
  name : RowAlias
  owner : ColumnRef
  key : String
  restriction : Option Restriction

/-- A table of the from list with the tables joined to it. -/
structure Source where
  table : String
  name : RowAlias
  joins : List Join

mutual

/-- An expression of SQL. -/
inductive Term where
  | literal (value : Value)
  | truth (value : Bool)
  | parameter (index : Nat)
  | raw (text : String)
  | column (column : ColumnRef)
  | rowOf (table : RowAlias)
  | allColumns
  | rowCount
  | call (function : String) (arguments : List Term)
  | negate (operand : Term)
  | infixed (operator : String) (left right : Term)
  | not (operand : Term)
  | isTrue (operand : Term)
  | nullTest (operand : Term) (negated : Bool)
  | oneOf (operand : Term) (candidates : List Term)
  | caseOf (selector : ColumnRef) (branches : List (Value × String))
  | subselect (select : Select)
  | nonempty (select : Select)

/-- A conjunct of a where clause. -/
inductive Condition where
  | restriction (restriction : Restriction)
  | sameColumn (left right : ColumnRef)
  | hasValue (left : ColumnRef) (right : Term)
  | term (term : Term)

/-- An item of the select list. -/
structure Item where
  term : Term
  label : Option String

/-- An item of the order-by list. -/
structure OrderKey where
  term : Term
  ascending : Bool

/-- A select statement. -/
structure Select where
  distinct : Bool
  items : List Item
  sources : List Source
  conditions : List Condition
  groupBy : List Term
  having : Option Term
  orderBy : List OrderKey

end

end ObjectQuery.Sql
