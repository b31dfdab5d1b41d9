import ObjectQuery.Proofs.Sql.Fragments
import ObjectQuery.Proofs.Sql.Texts
import ObjectQuery.Proofs.Text.InTurn

/-!
Contract: the terms of a statement that have no terms in them.

Owns:
- recursion on the parts of terms;
- `Term.leaves` and `Select.leaves`, the terms without parts from left to right;
- that their texts stand in the text of the whole one after another.

Does not own: where the leaves come from.
-/

namespace ObjectQuery.Sql

open Text (InTurn)

/-! ## Recursion on parts -/

theorem Condition.sizeOf_lt_of_mem_terms {t : Term} {condition : Condition}
    (member : t ∈ condition.terms) : sizeOf t < sizeOf condition := by
  cases condition with
  | restriction _ | sameColumn _ _ => cases member
  | hasValue left right =>
    obtain rfl := List.mem_singleton.mp member
    rw [Condition.hasValue.sizeOf_spec]
    omega
  | term t' =>
    obtain rfl := List.mem_singleton.mp member
    rw [Condition.term.sizeOf_spec]
    omega

theorem Select.sizeOf_lt_of_mem_terms {t : Term} {select : Select} (member : t ∈ select.terms) :
    sizeOf t < sizeOf select := by
  obtain ⟨distinct, items, sources, conditions, groupBy, having, orderBy⟩ := select
  rw [Select.mk.sizeOf_spec]
  simp only [Select.terms, List.mem_append, List.mem_map, List.mem_flatMap,
    Option.mem_toList] at member
  rcases member with (((⟨item, isItem, rfl⟩ | ⟨condition, isCondition, inCondition⟩) | isGroup)
    | isHaving) | ⟨key, isKey, rfl⟩
  · have smaller := List.sizeOf_lt_of_mem isItem
    have inItem : sizeOf item.term < sizeOf item := by
      obtain ⟨t, label⟩ := item
      rw [Item.mk.sizeOf_spec]
      show sizeOf t < 1 + sizeOf t + sizeOf label
      omega
    omega
  · have smaller := List.sizeOf_lt_of_mem isCondition
    have within := Condition.sizeOf_lt_of_mem_terms inCondition
    omega
  · have smaller := List.sizeOf_lt_of_mem isGroup
    omega
  · rw [Option.mem_def.mp isHaving, Option.some.sizeOf_spec]
    omega
  · have smaller := List.sizeOf_lt_of_mem isKey
    have inKey : sizeOf key.term < sizeOf key := by
      obtain ⟨t, ascending⟩ := key
      rw [OrderKey.mk.sizeOf_spec]
      show sizeOf t < 1 + sizeOf t + sizeOf ascending
      omega
    omega

namespace Term

/-- Parts are smaller. -/
theorem sizeOf_lt_of_mem_parts {part t : Term} (member : part ∈ t.parts) :
    sizeOf part < sizeOf t := by
  cases t with
  | literal _ | truth _ | parameter _ | raw _ | column _ | rowOf _ | allColumns | rowCount
  | caseOf _ _ => cases member
  | subselect select =>
    have smaller := Select.sizeOf_lt_of_mem_terms member
    rw [Term.subselect.sizeOf_spec]
    omega
  | nonempty select =>
    have smaller := Select.sizeOf_lt_of_mem_terms member
    rw [Term.nonempty.sizeOf_spec]
    omega
  | call _ arguments =>
    have smaller : sizeOf part < sizeOf arguments := List.sizeOf_lt_of_mem member
    rw [Term.call.sizeOf_spec]
    omega
  | oneOf operand candidates =>
    rw [Term.oneOf.sizeOf_spec]
    rcases List.mem_cons.mp member with rfl | isCandidate
    · omega
    · have smaller := List.sizeOf_lt_of_mem isCandidate
      omega
  | infixed _ _ _ | negate _ | not _ | isTrue _ | nullTest _ _ =>
    simp only [parts, List.mem_cons, List.not_mem_nil, or_false] at member
    grind [Term.infixed.sizeOf_spec, Term.negate.sizeOf_spec, Term.not.sizeOf_spec,
      Term.isTrue.sizeOf_spec, Term.nullTest.sizeOf_spec]

/-- What holds of a term whenever it holds of its parts holds of every term. -/
theorem parts_induction {motive : Term → Prop}
    (step : ∀ t, (∀ part ∈ t.parts, motive part) → motive t) (t : Term) : motive t :=
  step t fun part member =>
    have := sizeOf_lt_of_mem_parts member
    parts_induction step part
termination_by sizeOf t

/-- The terms without parts in a term, from left to right. -/
def leaves (t : Term) : List Term :=
  if t.parts.isEmpty then [t] else t.parts.attach.flatMap fun ⟨part, _⟩ => part.leaves
termination_by sizeOf t
decreasing_by exact sizeOf_lt_of_mem_parts ‹_›

theorem leaves_eq (t : Term) :
    t.leaves = if t.parts.isEmpty then [t] else t.parts.flatMap leaves := by
  rw [leaves]
  congr 1
  conv => rhs; rw [← List.attach_map_subtype_val t.parts, List.flatMap_map]

end Term

/-- The terms without parts in the clauses of a select statement, from left to right. -/
def Select.leaves (select : Select) : List Term :=
  select.terms.flatMap Term.leaves

/-! ## Texts -/

section

variable {config : Config} {pieces : Term → List String}

theorem inTurn_terms {ts : List Term} (separator : String)
    (each : ∀ t ∈ ts, InTurn (pieces t) (t.text config)) :
    InTurn (ts.flatMap pieces) (separator.intercalate (Term.texts config ts)) := by
  rw [Term.texts_eq_map]
  exact .intercalate separator each

/-- A clause stands behind its keyword. -/
theorem inTurn_clause {α : Type} {items : List α} {text : α → String} {ofItem : α → List String}
    (word separator : String)
    (each : ∀ item ∈ items, InTurn (ofItem item) (text item)) :
    InTurn (items.flatMap ofItem) (clauseText config word (items.map text) separator) := by
  cases items with
  | nil => exact .nil _
  | cons first rest => exact (InTurn.intercalate separator each).behind _

theorem Condition.inTurn_terms {condition : Condition}
    (each : ∀ t ∈ condition.terms, InTurn (pieces t) (t.text config)) :
    InTurn (condition.terms.flatMap pieces) (condition.text config) := by
  cases condition with
  | restriction _ | sameColumn _ _ => exact .nil _
  | hasValue left right =>
    rw [Condition.terms, List.flatMap_singleton]
    exact (each right List.mem_cons_self).behind _
  | term t =>
    rw [Condition.terms, List.flatMap_singleton]
    exact each t List.mem_cons_self

theorem Item.inTurn_term {item : Item} (ofTerm : InTurn (pieces item.term) (item.term.text config)) :
    InTurn (pieces item.term) (item.text config) := by
  rw [Item.text]
  split
  · exact ofTerm
  · exact (ofTerm.before _).before _

theorem OrderKey.inTurn_term {key : OrderKey}
    (ofTerm : InTurn (pieces key.term) (key.term.text config)) :
    InTurn (pieces key.term) (key.text config) := by
  rw [OrderKey.text]
  split
  · exact ofTerm
  · exact (ofTerm.before _).before _

/-- What stands in the terms of a select statement stands in its text, in the same order. -/
theorem Select.inTurn_terms {select : Select}
    (each : ∀ t ∈ select.terms, InTurn (pieces t) (t.text config)) :
    InTurn (select.terms.flatMap pieces) (select.text config) := by
  obtain ⟨distinct, items, sources, conditions, groupBy, having, orderBy⟩ := select
  simp only [Select.terms, List.forall_mem_append] at each
  obtain ⟨⟨⟨⟨ofItems, ofConditions⟩, ofGroups⟩, ofHaving⟩, ofKeys⟩ := each
  have inItems : InTurn ((items.map (·.term)).flatMap pieces)
      (Text.commaList (Item.texts config items)) := by
    rw [Item.texts_eq_map, List.flatMap_map]
    exact .intercalate _ fun item member =>
      Item.inTurn_term (ofItems _ (List.mem_map_of_mem member))
  have inConditions : InTurn ((conditions.flatMap Condition.terms).flatMap pieces)
      (clauseText config "where" (Condition.texts config conditions) (config.spaced "and")) := by
    rw [Condition.texts_eq_map, List.flatMap_assoc]
    exact inTurn_clause _ _ fun condition member =>
      Condition.inTurn_terms fun t inCondition =>
        ofConditions t (List.mem_flatMap_of_mem member inCondition)
  have inGroups : InTurn (groupBy.flatMap pieces)
      (clauseText config "group by" (Term.texts config groupBy) ", ") := by
    rw [Term.texts_eq_map]
    exact inTurn_clause _ _ ofGroups
  have inHaving : InTurn (having.toList.flatMap pieces)
      (clauseText config "having" (Term.optionTexts config having) "") := by
    rw [Term.optionTexts_eq_map]
    exact inTurn_clause _ _ ofHaving
  have inKeys : InTurn ((orderBy.map (·.term)).flatMap pieces)
      (clauseText config "order by" (OrderKey.texts config orderBy) ", ") := by
    rw [OrderKey.texts_eq_map, List.flatMap_map]
    exact inTurn_clause _ _ fun key member =>
      OrderKey.inTurn_term (ofKeys _ (List.mem_map_of_mem member))
  simp only [Select.terms, Select.text, List.flatMap_append]
  exact ((((inItems.behind _).before _ |>.before _).append inConditions).append inGroups
    |>.append inHaving).append inKeys

/-- What stands in the parts of a term stands in its text, in the same order. -/
theorem Term.inTurn_parts {t : Term}
    (each : ∀ part ∈ t.parts, InTurn (pieces part) (part.text config)) :
    InTurn (t.parts.flatMap pieces) (t.text config) := by
  cases t with
  | literal _ | truth _ | parameter _ | raw _ | column _ | rowOf _ | allColumns | rowCount
  | caseOf _ _ => exact .nil _
  | call function arguments =>
    exact ((inTurn_terms ", " each).behind _).before _
  | negate operand | not operand =>
    rw [Term.parts, List.flatMap_singleton, Term.text]
    exact ((each operand List.mem_cons_self).behind _).before _
  | isTrue operand =>
    rw [Term.parts, List.flatMap_singleton, Term.text]
    exact (((each operand List.mem_cons_self).behind _).before _ |>.before _).before _
  | nullTest operand negated =>
    rw [Term.parts, List.flatMap_singleton, Term.text]
    exact (((each operand List.mem_cons_self).behind _).before _ |>.before _).before _
  | infixed operator left right =>
    obtain ⟨ofLeft, others⟩ := List.forall_mem_cons.mp each
    have ofRight := List.forall_mem_singleton.mp others
    rw [Term.parts, List.flatMap_cons, List.flatMap_singleton, Term.text]
    exact (((ofLeft.behind _).before _).append ofRight).before _
  | oneOf operand candidates =>
    obtain ⟨ofOperand, ofCandidates⟩ := List.forall_mem_cons.mp each
    rw [Term.parts, List.flatMap_cons, Term.text]
    exact (((ofOperand.behind _).before _ |>.before _).append
      (inTurn_terms ", " ofCandidates)).before _
  | subselect select | nonempty select =>
    rw [Term.parts, Term.text]
    exact ((Select.inTurn_terms each).behind _).before _

end

/-- The texts of the leaves stand in the text of the term. -/
theorem Term.inTurn_leaves (config : Config) (t : Term) :
    InTurn (t.leaves.map (·.text config)) (t.text config) := by
  induction t using Term.parts_induction with
  | step t each =>
    rw [leaves_eq]
    split
    · exact .whole _
    · rw [List.map_flatMap]
      exact inTurn_parts each

theorem Select.inTurn_leaves (config : Config) (select : Select) :
    InTurn (select.leaves.map (·.text config)) (select.text config) := by
  rw [leaves, List.map_flatMap]
  exact inTurn_terms fun t _ => t.inTurn_leaves config

end ObjectQuery.Sql
