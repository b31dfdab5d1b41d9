import ObjectQuery.Proofs.Expr.Parts
import ObjectQuery.Proofs.Text.Literals

/-!
Contract: trees with other contents of their string literals.

An address leads from a tree to a node: the operands of a node are numbered, and so are the clauses
of a query; of a list, 0 is the first element and 1 the list of the others.

Owns: `Expr.refill` and `Query.refill`, and that every tree is one of those that it is refilled to.

Does not own: what the literals are used for.
-/

namespace ObjectQuery

open Text (Strings)

/-- The value with another content if it is a string. -/
def Value.refill (content : String) : Value → Value
  | .string _ => .string content
  | value => value

mutual

/-- The tree with other contents of its string literals. -/
def Expr.refill (strings : Strings) : Expr → Expr
  | .literal value => .literal (value.refill (strings []))
  | .parameter index modifier => .parameter index modifier
  | .path p => .path p
  | .binary op left right =>
    .binary op (left.refill (strings.under 0)) (right.refill (strings.under 1))
  | .negate operand => .negate (operand.refill (strings.under 0))
  | .call function arguments => .call function (Expr.refillEach strings arguments)
  | .raw text => .raw text
  | .query q => .query (q.refill strings)
  | .and left right => .and (left.refill (strings.under 0)) (right.refill (strings.under 1))
  | .or left right => .or (left.refill (strings.under 0)) (right.refill (strings.under 1))
  | .not operand => .not (operand.refill (strings.under 0))
  | .relational op left right =>
    .relational op (left.refill (strings.under 0)) (right.refill (strings.under 1))
  | .oneOf operand candidates =>
    .oneOf (operand.refill (strings.under 0)) (Expr.refillEach (strings.under 1) candidates)
  | .nullTest operand negated => .nullTest (operand.refill (strings.under 0)) negated
  | .boolean value => .boolean value
  | .nonempty q => .nonempty (q.refill strings)
  | .count owner collection => .count owner collection
  | .contains owner collection element =>
    .contains owner collection (element.refill (strings.under 0))
  | .asterisk owner => .asterisk owner
  | .classTag owner => .classTag owner

/-- Several trees with other contents of their string literals. -/
def Expr.refillEach (strings : Strings) : List Expr → List Expr
  | [] => []
  | e :: rest => e.refill (strings.under 0) :: Expr.refillEach (strings.under 1) rest

/-- A clause with other contents of its string literals, if it is there. -/
def Expr.refillOption (strings : Strings) : Option Expr → Option Expr
  | none => none
  | some e => some (e.refill strings)

/-- A select list with other contents of its string literals. -/
def SelectItem.refillEach (strings : Strings) : List SelectItem → List SelectItem
  | [] => []
  | ⟨expression, label⟩ :: rest =>
    ⟨expression.refill (strings.under 0), label⟩ :: SelectItem.refillEach (strings.under 1) rest

/-- An order-by list with other contents of its string literals. -/
def OrderItem.refillEach (strings : Strings) : List OrderItem → List OrderItem
  | [] => []
  | ⟨expression, ascending⟩ :: rest =>
    ⟨expression.refill (strings.under 0), ascending⟩ ::
      OrderItem.refillEach (strings.under 1) rest

/-- The query with other contents of its string literals. -/
def Query.refill (strings : Strings) : Query → Query
  | ⟨distinct, select, sources, condition, groupBy, having, orderBy⟩ =>
    ⟨distinct, SelectItem.refillEach (strings.under 0) select, sources,
      Expr.refillOption (strings.under 1) condition, Expr.refillEach (strings.under 2) groupBy,
      Expr.refillOption (strings.under 3) having, OrderItem.refillEach (strings.under 4) orderBy⟩

end

namespace Expr

variable (e : Expr) (strings : Strings)

@[simp]
theorem isBoolean_refill : (e.refill strings).isBoolean = e.isBoolean := by
  cases e <;> rfl

@[simp]
theorem isNullLiteral_refill : (e.refill strings).isNullLiteral = e.isNullLiteral := by
  cases e with
  | literal value => cases value <;> rfl
  | _ => rfl

@[simp]
theorem isBareAsterisk_refill : (e.refill strings).isBareAsterisk = e.isBareAsterisk := by
  cases e <;> rfl

end Expr

/-! ## The contents of a tree -/

/-- Contents that are put together from those of the parts. -/
def stringsOfParts (parts : List Strings) : Strings
  | [] => ""
  | index :: address => parts.getD index (fun _ => "") address

theorem Expr.exists_refillEach_eq {es : List Expr}
    (each : ∀ e ∈ es, ∃ strings, e.refill strings = e) :
    ∃ strings, Expr.refillEach strings es = es := by
  induction es with
  | nil => exact ⟨fun _ => "", rfl⟩
  | cons e rest inductionHypothesis =>
    obtain ⟨⟨first, ofFirst⟩, inRest⟩ := List.forall_mem_cons.mp each
    obtain ⟨others, ofOthers⟩ := inductionHypothesis inRest
    exact ⟨stringsOfParts [first, others], congrArg₂ List.cons ofFirst ofOthers⟩

theorem Expr.exists_refillOption_eq {e : Option Expr}
    (each : ∀ part ∈ e.toList, ∃ strings, part.refill strings = part) :
    ∃ strings, Expr.refillOption strings e = e := by
  cases e with
  | none => exact ⟨fun _ => "", rfl⟩
  | some e =>
    obtain ⟨strings, same⟩ := each e (List.mem_singleton_self e)
    exact ⟨strings, congrArg some same⟩

theorem SelectItem.exists_refillEach_eq {items : List SelectItem}
    (each : ∀ e ∈ items.map (·.expression), ∃ strings, e.refill strings = e) :
    ∃ strings, SelectItem.refillEach strings items = items := by
  induction items with
  | nil => exact ⟨fun _ => "", rfl⟩
  | cons item rest inductionHypothesis =>
    obtain ⟨expression, label⟩ := item
    obtain ⟨⟨first, ofFirst⟩, inRest⟩ := List.forall_mem_cons.mp each
    obtain ⟨others, ofOthers⟩ := inductionHypothesis inRest
    exact ⟨stringsOfParts [first, others],
      congrArg₂ List.cons (congrArg (SelectItem.mk · label) ofFirst) ofOthers⟩

theorem OrderItem.exists_refillEach_eq {items : List OrderItem}
    (each : ∀ e ∈ items.map (·.expression), ∃ strings, e.refill strings = e) :
    ∃ strings, OrderItem.refillEach strings items = items := by
  induction items with
  | nil => exact ⟨fun _ => "", rfl⟩
  | cons item rest inductionHypothesis =>
    obtain ⟨expression, ascending⟩ := item
    obtain ⟨⟨first, ofFirst⟩, inRest⟩ := List.forall_mem_cons.mp each
    obtain ⟨others, ofOthers⟩ := inductionHypothesis inRest
    exact ⟨stringsOfParts [first, others],
      congrArg₂ List.cons (congrArg (OrderItem.mk · ascending) ofFirst) ofOthers⟩

theorem Query.exists_refill_eq_of_clauses {q : Query}
    (each : ∀ e ∈ q.clauses, ∃ strings, e.refill strings = e) :
    ∃ strings, q.refill strings = q := by
  obtain ⟨distinct, select, sources, condition, groupBy, having, orderBy⟩ := q
  simp only [Query.clauses, List.forall_mem_append] at each
  obtain ⟨⟨⟨⟨inItems, inFilter⟩, inGroups⟩, inHaving⟩, inKeys⟩ := each
  obtain ⟨selected, ofItems⟩ := SelectItem.exists_refillEach_eq inItems
  obtain ⟨filtered, ofFilter⟩ := Expr.exists_refillOption_eq inFilter
  obtain ⟨grouped, ofGroups⟩ := Expr.exists_refillEach_eq inGroups
  obtain ⟨kept, ofHaving⟩ := Expr.exists_refillOption_eq inHaving
  obtain ⟨ordered, ofKeys⟩ := OrderItem.exists_refillEach_eq inKeys
  refine ⟨stringsOfParts [selected, filtered, grouped, kept, ordered], ?_⟩
  show Query.mk _ (SelectItem.refillEach selected select) _ (Expr.refillOption filtered condition)
    (Expr.refillEach grouped groupBy) (Expr.refillOption kept having)
    (OrderItem.refillEach ordered orderBy) = _
  rw [ofItems, ofFilter, ofGroups, ofHaving, ofKeys]

/-- A tree is refilled to itself with the contents that it has. -/
theorem Expr.exists_refill_eq (e : Expr) : ∃ strings, e.refill strings = e := by
  induction e using Expr.parts_induction with
  | step e each =>
    cases e with
    | literal value =>
      cases value with
      | string content => exact ⟨fun _ => content, rfl⟩
      | _ => exact ⟨fun _ => "", rfl⟩
    | parameter _ _ | path _ | raw _ | boolean _ | count _ _ | asterisk _ | classTag _ =>
      exact ⟨fun _ => "", rfl⟩
    | binary _ left right | and left right | or left right | relational _ left right =>
      obtain ⟨first, ofLeft⟩ := each left List.mem_cons_self
      obtain ⟨second, ofRight⟩ := each right (List.mem_cons_of_mem _ List.mem_cons_self)
      refine ⟨stringsOfParts [first, second], ?_⟩
      rw [refill]
      exact congrArg₂ _ ofLeft ofRight
    | negate operand =>
      obtain ⟨inner, ofOperand⟩ := each operand (List.mem_singleton_self _)
      exact ⟨stringsOfParts [inner], congrArg Expr.negate ofOperand⟩
    | not operand =>
      obtain ⟨inner, ofOperand⟩ := each operand (List.mem_singleton_self _)
      exact ⟨stringsOfParts [inner], congrArg Expr.not ofOperand⟩
    | nullTest operand negated =>
      obtain ⟨inner, ofOperand⟩ := each operand (List.mem_singleton_self _)
      exact ⟨stringsOfParts [inner], congrArg (Expr.nullTest · negated) ofOperand⟩
    | contains owner collection element =>
      obtain ⟨inner, ofElement⟩ := each element (parts_contains ▸ List.mem_cons_self)
      refine ⟨stringsOfParts [inner], ?_⟩
      rw [refill]
      exact congrArg (Expr.contains owner collection) ofElement
    | call function arguments =>
      rw [parts_call] at each
      obtain ⟨strings, same⟩ := Expr.exists_refillEach_eq each
      exact ⟨strings, congrArg (Expr.call function) same⟩
    | oneOf operand candidates =>
      rw [parts_oneOf] at each
      obtain ⟨⟨inner, ofOperand⟩, each⟩ := List.forall_mem_cons.mp each
      obtain ⟨others, ofCandidates⟩ := Expr.exists_refillEach_eq each
      refine ⟨stringsOfParts [inner, others], ?_⟩
      rw [refill]
      exact congrArg₂ Expr.oneOf ofOperand ofCandidates
    | query q =>
      obtain ⟨strings, same⟩ := Query.exists_refill_eq_of_clauses fun e member =>
        each e (List.mem_append_right _ member)
      exact ⟨strings, congrArg Expr.query same⟩
    | nonempty q =>
      obtain ⟨strings, same⟩ := Query.exists_refill_eq_of_clauses fun e member =>
        each e (List.mem_append_right _ member)
      exact ⟨strings, congrArg Expr.nonempty same⟩

theorem Query.exists_refill_eq (q : Query) : ∃ strings, q.refill strings = q :=
  exists_refill_eq_of_clauses fun e _ => e.exists_refill_eq

end ObjectQuery
