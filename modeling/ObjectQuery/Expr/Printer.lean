import ObjectQuery.Expr
import ObjectQuery.Text.Lists
import ObjectQuery.Text.Quoted

/-!
Contract: expressions and queries as text.

Every composite node stands in its own parentheses, so the text needs no precedence to be read.

Owns: `Value.literalText`, `Expr.text`, `Query.text`.
-/

namespace ObjectQuery

/-- A value as a literal: strings and dates are quoted. -/
def Value.literalText : Value → String
  | .string s => Text.quote s
  | .dateTime d => Text.quote d.text
  | v => v.text

/-- An item with its label behind `as`. -/
def labelled (item : String) : Option String → String
  | none => item
  | some label => item ++ " as " ++ label

/-- A class of the from list. -/
def FromItem.text (item : FromItem) : String :=
  labelled item.className item.label

/-- A parameter with its modifier. -/
def parameterText (index : Nat) : Option String → String
  | none => "\x7b" ++ toString index ++ "\x7d"
  | some modifier => "\x7b" ++ toString index ++ ":" ++ modifier ++ "\x7d"

mutual

/-- The text of an expression. -/
def Expr.text : Expr → String
  | .literal value => value.literalText
  | .parameter index modifier => parameterText index modifier
  | .path p => p.dotted
  | .binary op left right => "(" ++ left.text ++ " " ++ op.symbol ++ " " ++ right.text ++ ")"
  | .negate operand => "(-" ++ operand.text ++ ")"
  | .call function arguments => function ++ "(" ++ Text.commaList (Expr.texts arguments) ++ ")"
  | .raw source => "RAWQUERY(" ++ source ++ ")"
  | .query q => "(" ++ q.text ++ ")"
  | .and left right => "(" ++ left.text ++ " and " ++ right.text ++ ")"
  | .or left right => "(" ++ left.text ++ " or " ++ right.text ++ ")"
  | .not operand => "(not " ++ operand.text ++ ")"
  | .relational op left right => "(" ++ left.text ++ " " ++ op.symbol ++ " " ++ right.text ++ ")"
  | .oneOf operand candidates =>
    "(" ++ operand.text ++ " in (" ++ Text.commaList (Expr.texts candidates) ++ "))"
  | .nullTest operand negated =>
    "(" ++ operand.text ++ (if negated then " is not null)" else " is null)")
  | .boolean value => if value then "true" else "false"
  | .nonempty q => "exists(" ++ q.text ++ ")"
  | .count owner collection => dottedOwner owner ++ collection ++ ".Count"
  | .contains owner collection element =>
    dottedOwner owner ++ collection ++ ".Contains(" ++ element.text ++ ")"
  | .asterisk owner => dottedOwner owner ++ "*"
  | .classTag owner => dottedOwner owner ++ "SoodaClass"

/-- The texts of several expressions. -/
def Expr.texts : List Expr → List String
  | [] => []
  | e :: rest => e.text :: Expr.texts rest

/-- The texts of the select list. -/
def SelectItem.texts : List SelectItem → List String
  | [] => []
  | ⟨expression, label⟩ :: rest => labelled expression.text label :: SelectItem.texts rest

/-- The texts of the order-by list. -/
def OrderItem.texts : List OrderItem → List String
  | [] => []
  | ⟨expression, ascending⟩ :: rest =>
    (if ascending then expression.text else expression.text ++ " desc") :: OrderItem.texts rest

/-- A clause with one expression, if it is there. -/
def Expr.clauseText (word : String) : Option Expr → String
  | none => ""
  | some e => word ++ e.text

/-- The text of a query. -/
def Query.text : Query → String
  | ⟨distinct, select, sources, condition, groupBy, having, orderBy⟩ =>
    "select " ++ (if distinct then "distinct " else "") ++ Text.commaList (SelectItem.texts select)
      ++ " from " ++ Text.commaList (sources.map FromItem.text)
      ++ Expr.clauseText " where " condition
      ++ (if groupBy.isEmpty then "" else " group by " ++ Text.commaList (Expr.texts groupBy))
      ++ Expr.clauseText " having " having
      ++ (if orderBy.isEmpty then "" else " order by " ++ Text.commaList (OrderItem.texts orderBy))

end

end ObjectQuery
