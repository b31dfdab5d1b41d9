import ObjectQuery.Value

/-!
Contract: the expressions and queries of the language as data.

Owns:
- `Path`, a chain of property names;
- `Expr`, `Query` and their parts, which contain one another;
- the shape tests and small constructions that parsing, evaluation and SQL share.

Does not own: text, meaning, rewriting.
-/

namespace ObjectQuery

/-- An arithmetic operator. -/
inductive ArithmeticOp where
  | add
  | subtract
  | multiply
  | divide
  | modulo
deriving DecidableEq, Repr

/-- The operator as it is written. -/
def ArithmeticOp.symbol : ArithmeticOp → String
  | .add => "+"
  | .subtract => "-"
  | .multiply => "*"
  | .divide => "/"
  | .modulo => "%"

/-- A comparison operator. -/
inductive RelationalOp where
  | equal
  | notEqual
  | less
  | lessOrEqual
  | greater
  | greaterOrEqual
  | like
deriving DecidableEq, Repr

/-- The operator as it is written. -/
def RelationalOp.symbol : RelationalOp → String
  | .equal => "="
  | .notEqual => "<>"
  | .less => "<"
  | .lessOrEqual => "<="
  | .greater => ">"
  | .greaterOrEqual => ">="
  | .like => "like"

/-- Names joined by dots. -/
def dotted (names : List String) : String :=
  ".".intercalate names

/-- The names in front of a last one: each followed by a dot. -/
def dottedOwner (names : List String) : String :=
  String.join (names.map (· ++ "."))

/-- A property reached through the properties in front of it; with no owner it is a property of the
object at hand. -/
structure Path where
  owner : List String
  name : String
deriving DecidableEq, Repr

namespace Path

/-- The names of a path, the first one first. -/
def segments (path : Path) : List String :=
  path.owner ++ [path.name]

/-- The text of a path. -/
def dotted (path : Path) : String :=
  ObjectQuery.dotted path.segments

/-- The path with these names, if there are any. -/
def ofSegments? (names : List String) : Option Path :=
  names.getLast?.map fun name => ⟨names.dropLast, name⟩

end Path

/-- A class in the from list. -/
structure FromItem where
  className : String
  label : Option String
deriving DecidableEq, Repr

mutual

/-- An expression. Conditions may stand wherever values may: they are true, false or unknown. The
owner of `count`, `contains`, `asterisk` and `classTag` is the chain of properties in front of the
collection or mark; it is empty for the object at hand. -/
inductive Expr where
  | literal (value : Value)
  | parameter (index : Nat) (modifier : Option String)
  | path (path : Path)
  | binary (op : ArithmeticOp) (left right : Expr)
  | negate (operand : Expr)
  | call (function : String) (arguments : List Expr)
  | raw (text : String)
  | query (query : Query)
  | and (left right : Expr)
  | or (left right : Expr)
  | not (operand : Expr)
  | relational (op : RelationalOp) (left right : Expr)
  | oneOf (operand : Expr) (candidates : List Expr)
  | nullTest (operand : Expr) (negated : Bool)
  | boolean (value : Bool)
  | nonempty (query : Query)
  | count (owner : List String) (collection : String)
  | contains (owner : List String) (collection : String) (element : Expr)
  | asterisk (owner : List String)
  | classTag (owner : List String)

/-- An item of the select list. -/
structure SelectItem where
  expression : Expr
  label : Option String

/-- An item of the order-by list. -/
structure OrderItem where
  expression : Expr
  ascending : Bool

/-- A complete query. -/
structure Query where
  distinct : Bool
  select : List SelectItem
  sources : List FromItem
  condition : Option Expr
  groupBy : List Expr
  having : Option Expr
  orderBy : List OrderItem

end

instance : Inhabited Expr := ⟨.literal .null⟩

namespace Expr

/-- The node is a condition by its kind. -/
def isBoolean : Expr → Bool
  | and .. | or .. | not _ | relational .. | oneOf .. | nullTest .. | boolean _ | nonempty _
  | contains .. => true
  | _ => false

/-- The type of the node is known at run time only. -/
def isHostTyped : Expr → Bool
  | path _ | parameter .. | call .. | raw _ => true
  | _ => false

/-- The value of a literal node of either kind. -/
def constant? : Expr → Option Value
  | literal value => some value
  | boolean value => some (.boolean value)
  | _ => none

/-- The node is a literal of either kind. -/
def isConstant (e : Expr) : Bool :=
  e.constant?.isSome

/-- The literal node for a value: booleans have a node of their own. -/
def ofValue : Value → Expr
  | .boolean value => boolean value
  | value => literal value

/-- The node is the literal null. -/
def isNullLiteral : Expr → Bool
  | literal .null => true
  | _ => false

/-- The node is a `*` with nothing in front. -/
def isBareAsterisk : Expr → Bool
  | asterisk [] => true
  | _ => false

/-- `operand in (candidates)` as a disjunction of equalities, nested to the left; without candidates
it is false. -/
def expandOneOf (operand : Expr) : List Expr → Expr
  | [] => boolean false
  | first :: rest =>
    rest.foldl (fun found candidate => or found (relational .equal operand candidate))
      (relational .equal operand first)

/-- The path with this dotted text. -/
def ofDotted (text : String) : Expr :=
  match Path.ofSegments? (text.splitOn ".") with
  | some p => path p
  | none => literal .null

end Expr

namespace Query

/-- Every object of a class that satisfies a condition. -/
def selectAll (className : String) (condition : Option Expr) : Query where
  distinct := false
  select := [⟨.asterisk [], none⟩]
  sources := [⟨className, none⟩]
  condition := condition
  groupBy := []
  having := none
  orderBy := []

/-- The class of the first from item. -/
def rootClass? (query : Query) : Option String :=
  query.sources.head?.map (·.className)

end Query

end ObjectQuery
