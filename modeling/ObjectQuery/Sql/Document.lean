import ObjectQuery.Document.Record
import ObjectQuery.Error
import ObjectQuery.Sql.Config

/-!
Contract: the spelling of SQL from JSON documents.

Owns: `Sql.Config.parse`. Fields that are missing keep their standard choice.
-/

namespace ObjectQuery.Sql

/-- The name of an engine in documents. -/
def Dialect.documentName : Dialect → String
  | .sqlServer => "sql_server"
  | .postgres => "postgres"

/-- The engine with a name in documents. -/
def Dialect.ofDocumentName? (name : String) : Option Dialect :=
  [Dialect.sqlServer, Dialect.postgres].find? (·.documentName = name)

namespace Config

/-- The choices from a document. -/
def ofJson? (j : Json) : Option Config := do
  match ← j.record? ["dialect", "quote_identifiers", "uppercase_keywords"] with
  | [dialect, quoteIdentifiers, uppercaseKeywords] =>
    let readDialect (j : Json) : Option Dialect := j.plainChoice? >>= Dialect.ofDocumentName?
    pure ⟨← Json.withDefault? standard.dialect readDialect dialect,
      ← Json.withDefault? standard.quoteIdentifiers Json.asBoolean? quoteIdentifiers,
      ← Json.withDefault? standard.uppercaseKeywords Json.asBoolean? uppercaseKeywords⟩
  | _ => none

/-- The choices from the text of a document. -/
def parse (source : String) : Except Error Config :=
  match Json.parse? source >>= ofJson? with
  | some config => .ok config
  | none => .error .invalidConfiguration

end Config

end ObjectQuery.Sql
