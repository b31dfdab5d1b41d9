import ObjectQuery.Expr
import ObjectQuery.Schema.Catalog

/-!
Contract: chains of properties followed from class to class.

Every name but the last one of a path has to be a reference; each leads from the class that has it
to the class it refers to.

Owns: `Step`, `ResolvedPath` and the functions that resolve references and paths.
-/

namespace ObjectQuery

/-- One reference that is followed. `path` is the dotted text up to it. -/
structure Step where
  path : String
  owner : String
  field : FieldDef
  target : String
deriving DecidableEq, Repr

/-- A path with the references it follows, and the class and field it ends in. -/
structure ResolvedPath where
  steps : List Step
  owner : String
  field : FieldDef
deriving DecidableEq, Repr

namespace Schema

/-- Follows references from a class; `before` are the names that led there. The next class is known
by the name of the one that was found. -/
def resolveFrom (schema : Schema) (owner : String) (before : List String) :
    List String → Except Error (List Step)
  | [] => .ok []
  | name :: rest => do
    let field ← schema.requireField owner name
    match field.references with
    | none => .error (.notReference owner name)
    | some key =>
      let target ← schema.require key
      let names := before ++ [name]
      let steps ← schema.resolveFrom target.name names rest
      pure (⟨dotted names, owner, field, target.name⟩ :: steps)

/-- Follows references from a root class. -/
def resolveReferences (schema : Schema) (root : String) (names : List String) :
    Except Error (List Step) := do
  let _ ← schema.require root
  schema.resolveFrom root [] names

/-- The class that steps from a root class end in. -/
def endOf (root : String) (steps : List Step) : String :=
  (steps.getLast?.map (·.target)).getD root

/-- Resolves a path from a root class. -/
def resolvePath (schema : Schema) (root : String) (path : Path) :
    Except Error ResolvedPath := do
  let steps ← schema.resolveReferences root path.owner
  let owner := endOf root steps
  let field ← schema.requireField owner path.name
  pure ⟨steps, owner, field⟩

/-- The class that a chain of references leads to. -/
def classOf (schema : Schema) (root : String) (names : List String) : Except Error String := do
  pure (endOf root (← schema.resolveReferences root names))

end Schema

end ObjectQuery
