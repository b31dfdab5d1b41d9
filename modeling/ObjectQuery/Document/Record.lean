import ObjectQuery.Document.Json

/-!
Contract: records and choices in JSON documents.

A record is an object, whose unknown members are ignored and whose known ones may not be repeated,
or an array of its fields in order, in which fields may be missing at the end. A choice is a name,
or an object with one member whose name it is. Names have to be texts, those of unknown members
too, while what an unknown member holds is not looked at.

Owns: the readers of records, of their fields, and of choices.
-/

namespace ObjectQuery.Json

/-- A string that is a text. -/
def asString? : Json → Option String
  | string text => text
  | _ => none

/-- A boolean. -/
def asBoolean? : Json → Option Bool
  | boolean b => some b
  | _ => none

/-- A list whose elements are read one by one. -/
def asList? {α : Type} (read : Json → Option α) : Json → Option (List α)
  | array elements => elements.mapM read
  | _ => none

/-- The content of a member that is not repeated; the outer option is none when it is. -/
def member? (name : String) (members : List (String × Json)) : Option (Option Json) :=
  match members.filter (·.1 = name) with
  | [] => some none
  | [(_, content)] => some (some content)
  | _ => none

/-- The members of an object, when each of their names is a text. -/
def namedMembers? : Json → Option (List (String × Json))
  | object members => members.mapM fun (name, content) => name.map (·, content)
  | _ => none

/-- The contents of the fields of a record, none for a missing one. -/
def record? (names : List String) : Json → Option (List (Option Json))
  | array elements =>
    if elements.length ≤ names.length then
      some (elements.map some ++ List.replicate (names.length - elements.length) none)
    else
      none
  | j => do
    let members ← j.namedMembers?
    names.mapM fun name => member? name members

/-- A field that may be missing or null. -/
def asOption? {α : Type} (read : Json → Option α) : Option Json → Option (Option α)
  | none => some none
  | some null => some none
  | some content => (read content).map some

/-- A field that has a value of its own when it is missing. -/
def withDefault? {α : Type} (default : α) (read : Json → Option α) : Option Json → Option α
  | none => some default
  | some content => read content

/-- The name of a choice and its content, none when there is no content. -/
def choice? : Json → Option (String × Option Json)
  | string (some name) => some (name, none)
  | object [(some name, content)] => some (name, some content)
  | _ => none

/-- The name of a choice without content. -/
def plainChoice? (j : Json) : Option String :=
  match j.choice? with
  | some (name, none) => some name
  | some (name, some null) => some name
  | _ => none

end ObjectQuery.Json
