import ObjectQuery.Expr.Printer
import ObjectQuery.Proofs.Expr.Parts
import ObjectQuery.Proofs.Text.Fragments

/-!
Contract: the text of an expression as a row of fragments.

Owns:
- `Expr.fragments` and `Query.fragments`, which are written as the text;
- `Expr.parameters` and `Query.parameters`, the parameters in the order of the text, and that those
  of a node are those of its parts one after the other.

Does not own: what parameters stand for.
-/

namespace ObjectQuery

open Text (Fragments)
open Text.Fragments (plain joined written)

mutual

/-- The text of an expression as fragments. -/
def Expr.fragments : Expr → Fragments
  | .literal value => plain value.literalText
  | .parameter index modifier => [.parameter index modifier]
  | .path p => plain p.dotted
  | .binary op left right =>
    plain "(" ++ left.fragments ++ plain (" " ++ op.symbol ++ " ") ++ right.fragments ++ plain ")"
  | .negate operand => plain "(-" ++ operand.fragments ++ plain ")"
  | .call function arguments =>
    plain (function ++ "(") ++ joined ", " (Expr.fragmentsEach arguments) ++ plain ")"
  | .raw source => plain ("RAWQUERY(" ++ source ++ ")")
  | .query q => plain "(" ++ q.fragments ++ plain ")"
  | .and left right => plain "(" ++ left.fragments ++ plain " and " ++ right.fragments ++ plain ")"
  | .or left right => plain "(" ++ left.fragments ++ plain " or " ++ right.fragments ++ plain ")"
  | .not operand => plain "(not " ++ operand.fragments ++ plain ")"
  | .relational op left right =>
    plain "(" ++ left.fragments ++ plain (" " ++ op.symbol ++ " ") ++ right.fragments ++ plain ")"
  | .oneOf operand candidates =>
    plain "(" ++ operand.fragments ++ plain " in (" ++ joined ", " (Expr.fragmentsEach candidates)
      ++ plain "))"
  | .nullTest operand negated =>
    plain "(" ++ operand.fragments ++ plain (if negated then " is not null)" else " is null)")
  | .boolean value => plain (if value then "true" else "false")
  | .nonempty q => plain "exists(" ++ q.fragments ++ plain ")"
  | .count owner collection => plain (dottedOwner owner ++ collection ++ ".Count")
  | .contains owner collection element =>
    plain (dottedOwner owner ++ collection ++ ".Contains(") ++ element.fragments ++ plain ")"
  | .asterisk owner => plain (dottedOwner owner ++ "*")
  | .classTag owner => plain (dottedOwner owner ++ "SoodaClass")

/-- The texts of several expressions as fragments. -/
def Expr.fragmentsEach : List Expr → List Fragments
  | [] => []
  | e :: rest => e.fragments :: Expr.fragmentsEach rest

/-- The texts of the select list as fragments. -/
def SelectItem.fragmentsEach : List SelectItem → List Fragments
  | [] => []
  | ⟨expression, label⟩ :: rest =>
    (expression.fragments ++ plain (labelled "" label)) :: SelectItem.fragmentsEach rest

/-- The texts of the order-by list as fragments. -/
def OrderItem.fragmentsEach : List OrderItem → List Fragments
  | [] => []
  | ⟨expression, ascending⟩ :: rest =>
    (expression.fragments ++ plain (if ascending then "" else " desc")) ::
      OrderItem.fragmentsEach rest

/-- A clause with one expression as fragments, if it is there. -/
def Expr.clauseFragments (word : String) : Option Expr → Fragments
  | none => []
  | some e => plain word ++ e.fragments

/-- The text of a query as fragments. -/
def Query.fragments : Query → Fragments
  | ⟨distinct, select, sources, condition, groupBy, having, orderBy⟩ =>
    plain ("select " ++ (if distinct then "distinct " else ""))
      ++ joined ", " (SelectItem.fragmentsEach select)
      ++ plain " from " ++ plain (Text.commaList (sources.map FromItem.text))
      ++ Expr.clauseFragments " where " condition
      ++ (if groupBy.isEmpty then []
        else plain " group by " ++ joined ", " (Expr.fragmentsEach groupBy))
      ++ Expr.clauseFragments " having " having
      ++ (if orderBy.isEmpty then []
        else plain " order by " ++ joined ", " (OrderItem.fragmentsEach orderBy))

end

/-! ## The text -/

theorem labelled_eq_append (item : String) (label : Option String) :
    labelled item label = item ++ labelled "" label := by
  cases label with
  | none => exact String.append_empty.symm
  | some label => simp [labelled, String.append_assoc]

theorem written_ite {spell : Nat → Option String → String} {condition : Prop} [Decidable condition]
    {first second : Fragments} :
    written spell (if condition then first else second) =
      if condition then written spell first else written spell second :=
  apply_ite _ _ _ _

mutual

/-- The fragments of an expression are written as its text. -/
theorem Expr.written_fragments : ∀ e : Expr, written parameterText e.fragments = e.text
  | .literal _ | .path _ | .raw _ | .boolean _ | .count .. | .asterisk _ | .classTag _ => by
    simp [Expr.fragments, Expr.text]
  | .parameter .. => by simp [Expr.fragments, Expr.text]
  | .binary _ left right | .relational _ left right | .and left right | .or left right => by
    simp [Expr.fragments, Expr.text, left.written_fragments, right.written_fragments,
      String.append_assoc]
  | .negate operand | .not operand | .nullTest operand _ => by
    simp [Expr.fragments, Expr.text, operand.written_fragments, String.append_assoc]
  | .call _ arguments => by
    simp [Expr.fragments, Expr.text, Text.commaList, Expr.written_fragmentsEach arguments,
      String.append_assoc]
  | .oneOf operand candidates => by
    simp [Expr.fragments, Expr.text, Text.commaList, operand.written_fragments,
      Expr.written_fragmentsEach candidates, String.append_assoc]
  | .query q | .nonempty q => by
    simp [Expr.fragments, Expr.text, q.written_fragments, String.append_assoc]
  | .contains _ _ element => by
    simp [Expr.fragments, Expr.text, element.written_fragments, String.append_assoc]

theorem Expr.written_fragmentsEach :
    ∀ es : List Expr, (Expr.fragmentsEach es).map (written parameterText) = Expr.texts es
  | [] => rfl
  | e :: rest => by
    rw [Expr.fragmentsEach, List.map_cons, e.written_fragments, Expr.written_fragmentsEach rest,
      Expr.texts]

theorem SelectItem.written_fragmentsEach :
    ∀ items : List SelectItem,
      (SelectItem.fragmentsEach items).map (written parameterText) = SelectItem.texts items
  | [] => rfl
  | ⟨expression, label⟩ :: rest => by
    rw [SelectItem.fragmentsEach, List.map_cons, Fragments.written_append,
      expression.written_fragments, Fragments.written_plain, ← labelled_eq_append,
      SelectItem.written_fragmentsEach rest, SelectItem.texts]

theorem OrderItem.written_fragmentsEach :
    ∀ items : List OrderItem,
      (OrderItem.fragmentsEach items).map (written parameterText) = OrderItem.texts items
  | [] => rfl
  | ⟨expression, ascending⟩ :: rest => by
    rw [OrderItem.fragmentsEach, List.map_cons, Fragments.written_append,
      expression.written_fragments, Fragments.written_plain, OrderItem.written_fragmentsEach rest,
      OrderItem.texts]
    cases ascending <;> simp

theorem Expr.written_clauseFragments (word : String) :
    ∀ e : Option Expr, written parameterText (Expr.clauseFragments word e) = Expr.clauseText word e
  | none => rfl
  | some e => by
    rw [Expr.clauseFragments, Fragments.written_append, Fragments.written_plain,
      e.written_fragments, Expr.clauseText]

/-- The fragments of a query are written as its text. -/
theorem Query.written_fragments : ∀ q : Query, written parameterText q.fragments = q.text
  | ⟨_, select, _, condition, groupBy, having, orderBy⟩ => by
    simp only [Query.fragments, Query.text, Text.commaList, Fragments.written_append,
      Fragments.written_plain, Fragments.written_joined, Fragments.written_nil, written_ite,
      SelectItem.written_fragmentsEach select, Expr.written_clauseFragments _ condition,
      Expr.written_fragmentsEach groupBy, Expr.written_clauseFragments _ having,
      OrderItem.written_fragmentsEach orderBy]

end

/-! ## The parameters -/

/-- The parameters of an expression in the order of its text. -/
def Expr.parameters (e : Expr) : List Nat :=
  e.fragments.parameters

/-- The parameters of a query in the order of its text. -/
def Query.parameters (q : Query) : List Nat :=
  q.fragments.parameters

theorem Expr.parameters_fragmentsEach (es : List Expr) :
    (Expr.fragmentsEach es).flatMap Fragments.parameters = es.flatMap Expr.parameters := by
  induction es with
  | nil => rfl
  | cons e rest inductionHypothesis =>
    rw [Expr.fragmentsEach, List.flatMap_cons, inductionHypothesis]
    rfl

theorem Expr.parameters_clauseFragments (word : String) (e : Option Expr) :
    (Expr.clauseFragments word e).parameters = e.toList.flatMap Expr.parameters := by
  cases e with
  | none => rfl
  | some e => simp [Expr.clauseFragments, Expr.parameters]

theorem SelectItem.parameters_fragmentsEach (items : List SelectItem) :
    (SelectItem.fragmentsEach items).flatMap Fragments.parameters =
      (items.map (·.expression)).flatMap Expr.parameters := by
  induction items with
  | nil => rfl
  | cons item rest inductionHypothesis =>
    obtain ⟨expression, label⟩ := item
    simp [SelectItem.fragmentsEach, inductionHypothesis, Expr.parameters]

theorem OrderItem.parameters_fragmentsEach (items : List OrderItem) :
    (OrderItem.fragmentsEach items).flatMap Fragments.parameters =
      (items.map (·.expression)).flatMap Expr.parameters := by
  induction items with
  | nil => rfl
  | cons item rest inductionHypothesis =>
    obtain ⟨expression, ascending⟩ := item
    simp [OrderItem.fragmentsEach, inductionHypothesis, Expr.parameters]

/-- The clauses of a query stand in its text one after the other. -/
theorem Query.parameters_eq_flatMap (q : Query) :
    q.parameters = q.clauses.flatMap Expr.parameters := by
  obtain ⟨distinct, select, sources, condition, groupBy, having, orderBy⟩ := q
  have groups : Fragments.parameters (if groupBy.isEmpty then []
      else plain " group by " ++ joined ", " (Expr.fragmentsEach groupBy)) =
        groupBy.flatMap Expr.parameters := by
    cases groupBy with
    | nil => rfl
    | cons e rest => simp [Expr.parameters_fragmentsEach]
  have keys : Fragments.parameters (if orderBy.isEmpty then []
      else plain " order by " ++ joined ", " (OrderItem.fragmentsEach orderBy)) =
        (orderBy.map (·.expression)).flatMap Expr.parameters := by
    cases orderBy with
    | nil => rfl
    | cons item rest => simp [OrderItem.parameters_fragmentsEach]
  simp only [Query.parameters, Query.fragments, Query.clauses, Fragments.parameters_append,
    Fragments.parameters_plain, Fragments.parameters_joined, SelectItem.parameters_fragmentsEach,
    Expr.parameters_clauseFragments, groups, keys, List.flatMap_append, List.nil_append,
    List.append_nil]

/-- The parameter that a node is. -/
def Expr.ownParameters : Expr → List Nat
  | .parameter index _ => [index]
  | _ => []

@[simp]
theorem Expr.parameters_query (q : Query) : (Expr.query q).parameters = q.parameters := by
  simp [Expr.parameters, Expr.fragments, Query.parameters]

@[simp]
theorem Expr.parameters_nonempty (q : Query) : (Expr.nonempty q).parameters = q.parameters := by
  simp [Expr.parameters, Expr.fragments, Query.parameters]

/-- The parts of a node stand in its text one after the other. -/
theorem Expr.parameters_eq_flatMap (e : Expr) :
    e.parameters = e.ownParameters ++ e.parts.flatMap Expr.parameters := by
  cases e with
  | literal _ | path _ | raw _ | boolean _ | count _ _ | asterisk _ | classTag _ | parameter _ _ =>
    rfl
  | binary _ _ _ | relational _ _ _ | and _ _ | or _ _ | negate _ | not _ | nullTest _ _ =>
    simp [Expr.parameters, Expr.fragments, Expr.ownParameters, Expr.parts, Expr.operands,
      Expr.clauses]
  | call function arguments =>
    rw [Expr.parts_call]
    simp [Expr.parameters, Expr.fragments, Expr.ownParameters, Expr.parameters_fragmentsEach]
  | oneOf operand candidates =>
    rw [Expr.parts_oneOf]
    simp [Expr.parameters, Expr.fragments, Expr.ownParameters, Expr.parameters_fragmentsEach]
  | contains _ _ _ =>
    rw [Expr.parts_contains]
    simp [Expr.parameters, Expr.fragments, Expr.ownParameters]
  | query q => exact (Expr.parameters_query q).trans q.parameters_eq_flatMap
  | nonempty q => exact (Expr.parameters_nonempty q).trans q.parameters_eq_flatMap

end ObjectQuery
