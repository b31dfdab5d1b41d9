import ObjectQuery.Text.Case
import ObjectQuery.Text.Quoted
import ObjectQuery.Value

/-!
Contract: how the pieces of an SQL text are spelled.

Owns:
- `Dialect` and `Config`, the choices of an SQL engine and of a style;
- the spelling of keywords, identifiers, literals, placeholders, columns, tables and joins.

Does not own: which pieces a statement has.
-/

namespace ObjectQuery.Sql

/-- The engine that an SQL text is for. -/
inductive Dialect where
  | sqlServer
  | postgres
deriving DecidableEq, Repr

namespace Dialect

/-- The name of the engine. -/
def name : Dialect → String
  | .sqlServer => "SQL Server"
  | .postgres => "PostgreSQL"

/-- The opening and closing delimiter of a quoted identifier. -/
def delimiters : Dialect → Char × Char
  | .sqlServer => ('[', ']')
  | .postgres => ('"', '"')

/-- An identifier between its delimiters, the closing one doubled inside. -/
def quoteIdentifier (dialect : Dialect) (name : String) : String :=
  Text.Quoted.quoteWith dialect.delimiters.1 dialect.delimiters.2 name

/-- The placeholder of a parameter; parameters count from zero. -/
def placeholder (dialect : Dialect) (index : Nat) : String :=
  match dialect with
  | .sqlServer => "@p" ++ toString index
  | .postgres => "$" ++ toString (index + 1)

/-- A boolean as a value. -/
def booleanText : Dialect → Bool → String
  | .sqlServer, true => "1"
  | .sqlServer, false => "0"
  | .postgres, true => "true"
  | .postgres, false => "false"

end Dialect

/-- The choices that decide how an SQL text is spelled. -/
structure Config where
  dialect : Dialect
  quoteIdentifiers : Bool
  uppercaseKeywords : Bool
deriving DecidableEq, Repr

/-- How two tables are joined. -/
inductive JoinKind where
  | inner
  | leftOuter
deriving DecidableEq, Repr

/-- The keyword of a join. -/
def JoinKind.keyword : JoinKind → String
  | .inner => "inner join"
  | .leftOuter => "left outer join"

namespace Config

/-- The choices when nothing is said. -/
def standard : Config := ⟨.sqlServer, false, false⟩

/-- The usual choices for SQL Server. -/
def forSqlServer : Config := standard

/-- The usual choices for PostgreSQL. -/
def forPostgres : Config := ⟨.postgres, true, false⟩

/-- A keyword. -/
def keyword (config : Config) (word : String) : String :=
  if config.uppercaseKeywords then Text.upper word else word

/-- An identifier. -/
def identifier (config : Config) (name : String) : String :=
  if config.quoteIdentifiers then config.dialect.quoteIdentifier name else name

/-- A literal. -/
def literal (config : Config) : Value → String
  | .null => config.keyword "null"
  | .boolean b => config.dialect.booleanText b
  | .string s => Text.quote s
  | .dateTime d => Text.quote d.compactText
  | v => v.text

/-- The placeholder of a parameter. -/
def parameter (config : Config) (index : Nat) : String :=
  config.dialect.placeholder index

/-- A column of a table that goes by another name. -/
def column (config : Config) (table column : String) : String :=
  config.identifier table ++ "." ++ config.identifier column

/-- A table with the name it goes by. -/
def table (config : Config) (table name : String) : String :=
  config.identifier table ++ " " ++ config.identifier name

/-- A join on the equality of two columns, written out, and a further restriction if there is
one. -/
def join
    (config : Config)
    (kind : JoinKind)
    (table name left right : String)
    (restriction : Option String) : String :=
  let further :=
    match restriction with
    | none => ""
    | some text => " " ++ config.keyword "and" ++ " " ++ text
  " " ++ config.keyword kind.keyword ++ " " ++ config.table table name ++ " "
    ++ config.keyword "on" ++ " (" ++ left ++ " = " ++ right ++ further ++ ")"

end Config

end ObjectQuery.Sql
