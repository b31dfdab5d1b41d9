import ObjectQuery.Proofs.Sql.Materials
import ObjectQuery.Proofs.Sql.Texts

/-!
Contract: what holds of the pieces of two texts of a statement holds of the texts.

A statement is written under two choices of spelling. A relation that holds of each piece, and that
joining texts and putting them in brackets keeps, holds of the two texts of each term and of the
statement. With one and the same choice on both sides this is a law about single texts.

Owns: `Relates`, and `Relates.term` and `Relates.select`.

Does not own: relations that are kept.
-/

namespace ObjectQuery.Sql

/-- The words that are written as keywords. -/
def keywords : List String :=
  infixOperators ++ ["null", "in", "on", "left outer join", "as", "desc", "count", "not", "is null",
    "is not null", "case", "when", "then", "end", "exists", "select", "distinct", "from", "where",
    "group by", "having", "order by"]

/-- The other pieces that are the same in all texts. -/
def marks : List String :=
  ["", " ", ", ", " = ", ".*", "*", "-", "1=1", "1=0"]

/-- A relation between texts under two configurations holds of the pieces of a text whose names and
raw texts have properties, and is kept by joining and by brackets. -/
structure Relates (related : String → String → Prop) (valid own raw : String → Prop)
    (first second : Config) : Prop where
  append {a a' b b' : String} : related a a' → related b b' → related (a ++ b) (a' ++ b')
  brackets {a a' : String} : related a a' → related ("(" ++ a ++ ")") ("(" ++ a' ++ ")")
  mark {text : String} : text ∈ marks → related text text
  keyword {word : String} : word ∈ keywords → related (first.keyword word) (second.keyword word)
  literal (value : Value) : related (first.literal value) (second.literal value)
  parameter (index : Nat) : related (first.parameter index) (second.parameter index)
  table {name : String} : valid name →
    related (first.identifier name) (second.identifier name)
  label {name : String} : own name →
    related (first.identifier name) (second.identifier name)
  row (name : RowAlias) : related (first.identifier name.text) (second.identifier name.text)
  column {ref : ColumnRef} : valid ref.column → related (ref.text first) (ref.text second)
  function {name : String} : own name → related name name
  raw {text : String} : raw text → related text text

namespace Relates

variable {related : String → String → Prop} {valid own raw : String → Prop}
variable {first second : Config} (relates : Relates related valid own raw first second)

include relates

/-! ## Lists -/

theorem empty : related "" "" :=
  relates.mark (by decide)

theorem blank : related " " " " :=
  relates.mark (by decide)

theorem equality : related " = " " = " :=
  relates.mark (by decide)

theorem spaced {word : String} (isKeyword : word ∈ keywords) :
    related (first.spaced word) (second.spaced word) :=
  relates.append (relates.append relates.blank (relates.keyword isKeyword)) relates.blank

/-- Texts with a separator between them. -/
theorem intercalate {separator separator' : String} {texts texts' : List String}
    (between : related separator separator')
    (each : List.Forall₂ related texts texts') :
    related (separator.intercalate texts) (separator'.intercalate texts') := by
  induction each with
  | nil => exact relates.empty
  | cons ofFirst ofRest inductionHypothesis =>
    cases ofRest with
    | nil => exact ofFirst
    | cons =>
      rw [String.intercalate_cons_cons, String.intercalate_cons_cons]
      exact relates.append (relates.append ofFirst between) inductionHypothesis

theorem commaList {texts texts' : List String} (each : List.Forall₂ related texts texts') :
    related (Text.commaList texts) (Text.commaList texts') :=
  relates.intercalate (relates.mark (by decide)) each

theorem join {texts texts' : List String} (each : List.Forall₂ related texts texts') :
    related (String.join texts) (String.join texts') := by
  induction each with
  | nil => exact relates.empty
  | cons ofFirst _ inductionHypothesis =>
    rw [String.join_cons, String.join_cons]
    exact relates.append ofFirst inductionHypothesis

omit relates in
/-- What is written for each element of a list. -/
theorem each_map {α : Type} {items : List α} {write write' : α → String}
    (each : ∀ item ∈ items, related (write item) (write' item)) :
    List.Forall₂ related (items.map write) (items.map write') := by
  rw [List.forall₂_map_left_iff, List.forall₂_map_right_iff]
  exact List.forall₂_same.mpr each

theorem clause {word separator separator' : String} {texts texts' : List String}
    (isKeyword : word ∈ keywords)
    (between : related separator separator')
    (each : List.Forall₂ related texts texts') :
    related (clauseText first word texts separator) (clauseText second word texts' separator') := by
  cases each with
  | nil => exact relates.empty
  | cons ofFirst ofRest =>
    exact relates.append (relates.spaced isKeyword)
      (relates.intercalate between (.cons ofFirst ofRest))

/-! ## Tables and conjuncts -/

theorem tableAs {table : String} (named : valid table) (name : RowAlias) :
    related (first.table table name.text) (second.table table name.text) :=
  relates.append (relates.append (relates.table named) relates.blank) (relates.row name)

theorem literals (values : List Value) :
    List.Forall₂ related (values.map first.literal) (values.map second.literal) :=
  each_map fun value _ => relates.literal value

theorem restriction {kept : Restriction} (named : valid kept.selector.column) :
    related (kept.text first) (kept.text second) := by
  have opening : " (" = " " ++ "(" := rfl
  rw [Restriction.text, Restriction.text]
  split
  · exact relates.brackets (relates.mark (by decide) : related "1=0" "1=0")
  · have listed := relates.brackets (relates.commaList (relates.literals kept.values))
    simp only [opening, String.append_assoc] at listed ⊢
    exact relates.append (relates.column named) (relates.append relates.blank
      (relates.append (relates.keyword (by decide)) (relates.append relates.blank listed)))

theorem further {join : Join} (named : join.Named valid) :
    related (join.further first) (join.further second) := by
  unfold Join.further
  split
  · exact relates.empty
  · next kept found =>
    exact relates.append (relates.spaced (by decide))
      (relates.restriction (named.restriction kept found))

theorem joined {join : Join} (named : join.Named valid) :
    related (join.text first) (join.text second) := by
  have key : related ((⟨join.name, join.key⟩ : ColumnRef).text first)
      ((⟨join.name, join.key⟩ : ColumnRef).text second) := relates.column named.key
  rw [Join.text_eq, Join.text_eq]
  refine relates.append (relates.spaced (by decide))
    (relates.append (relates.tableAs named.table _) ?_)
  refine relates.append (relates.spaced (by decide)) (relates.brackets ?_)
  exact relates.append (relates.column named.owner) (relates.append relates.equality
    (relates.append key (relates.further named)))

theorem source {source : Source} (named : source.Named valid) :
    related (source.text first) (source.text second) :=
  relates.append (relates.tableAs named.table source.name)
    (relates.join (each_map fun join member => relates.joined (named.joins join member)))

theorem branches (branches : List (Value × String)) :
    related (branchesText first branches) (branchesText second branches) := by
  refine relates.join (each_map ?_)
  rintro ⟨value, name⟩ -
  exact relates.append (relates.append (relates.append (relates.append (relates.append
    (relates.spaced (by decide)) (relates.literal value)) relates.blank)
      (relates.keyword (by decide))) relates.blank) (relates.literal (.string name))

/-- The terms of a conjunct decide, apart from its columns. -/
theorem condition {condition : Condition}
    (columns : ∀ ref ∈ condition.columns, valid ref.column)
    (terms : ∀ t ∈ condition.terms, related (t.text first) (t.text second)) :
    related (condition.text first) (condition.text second) := by
  cases condition with
  | restriction kept => exact relates.restriction (columns _ List.mem_cons_self)
  | sameColumn left right =>
    exact relates.append (relates.append (relates.column (columns left List.mem_cons_self))
      relates.equality) (relates.column (columns right (List.mem_cons_of_mem _ List.mem_cons_self)))
  | hasValue left right =>
    exact relates.append (relates.append (relates.column (columns left List.mem_cons_self))
      relates.equality) (terms right List.mem_cons_self)
  | term t => exact terms t List.mem_cons_self

/-! ## Selects -/

theorem item {item : Item} (label : ∀ name ∈ item.label, own name)
    (ofTerm : related (item.term.text first) (item.term.text second)) :
    related (item.text first) (item.text second) := by
  obtain ⟨t, _ | name⟩ := item
  · exact ofTerm
  · exact relates.append (relates.append ofTerm (relates.spaced (by decide)))
      (relates.label (label name rfl))

theorem orderKey {key : OrderKey} (ofTerm : related (key.term.text first) (key.term.text second)) :
    related (key.text first) (key.text second) := by
  unfold OrderKey.text
  split
  · exact ofTerm
  · exact relates.append (relates.append ofTerm relates.blank) (relates.keyword (by decide))

/-- The terms of a select decide, apart from the names that stand outside them. -/
theorem select_of_terms {select : Select} (named : select.Named valid own)
    (terms : ∀ t ∈ select.terms, related (t.text first) (t.text second)) :
    related (select.text first) (select.text second) := by
  obtain ⟨distinct, items, sources, conditions, groupBy, having, orderBy⟩ := select
  simp only [Select.terms, List.forall_mem_append, List.forall_mem_flatMap,
    List.forall_mem_map] at terms
  obtain ⟨⟨⟨⟨ofItems, ofConditions⟩, ofGroups⟩, ofHaving⟩, ofKeys⟩ := terms
  have opening : related
      (first.keyword "select" ++ " " ++ if distinct then first.keyword "distinct" ++ " " else "")
      (second.keyword "select" ++ " " ++ if distinct then second.keyword "distinct" ++ " " else "") := by
    refine relates.append (relates.append (relates.keyword (by decide)) relates.blank) ?_
    cases distinct
    · exact relates.empty
    · exact relates.append (relates.keyword (by decide)) relates.blank
  simp only [Select.text, Item.texts_eq_map, Condition.texts_eq_map, Term.texts_eq_map,
    Term.optionTexts_eq_map, OrderKey.texts_eq_map]
  refine relates.append (relates.append (relates.append (relates.append (relates.append
    (relates.append (relates.append opening ?_) (relates.spaced (by decide))) ?_) ?_) ?_) ?_) ?_
  · exact relates.commaList (each_map fun item member =>
      relates.item (named.labels item member) (ofItems item member))
  · exact relates.commaList (each_map fun source member =>
      relates.source (named.sources source member))
  · exact relates.clause (by decide) (relates.spaced (by decide)) (each_map fun condition member =>
      relates.condition (named.columns condition member) (ofConditions condition member))
  · exact relates.clause (by decide) (relates.mark (by decide)) (each_map ofGroups)
  · exact relates.clause (by decide) relates.empty (each_map ofHaving)
  · exact relates.clause (by decide) (relates.mark (by decide)) (each_map fun key member =>
      relates.orderKey (ofKeys key member))

/-! ## Terms -/

omit relates in
/-- The two texts of a term are related, and so is what stands in their brackets. -/
structure Both (related : String → String → Prop) (first second : Config) (t : Term) : Prop where
  whole : related (t.text first) (t.text second)
  inside : ∀ pair ∈ t.bracketed? first, ∀ pair' ∈ t.bracketed? second, related pair.2 pair'.2

omit relates in
theorem Both.simple {t : Term} (whole : related (t.text first) (t.text second))
    (simple : t.bracketed? first = none) : Both related first second t where
  whole := whole
  inside := by simp [simple]

theorem composite {t : Term} {head content head' content' : String}
    (isFirst : t.bracketed? first = some (head, content))
    (isSecond : t.bracketed? second = some (head', content'))
    (ofHead : related head head')
    (ofContent : related content content') : Both related first second t where
  whole := by
    rw [Term.text_of_bracketed? isFirst, Term.text_of_bracketed? isSecond]
    exact relates.append ofHead (relates.brackets ofContent)
  inside := by simpa [isFirst, isSecond] using ofContent

/-- By induction on what the term is made of. -/
theorem both {t : Term} (made : t.MadeOf valid own raw) : Both related first second t := by
  induction made with
  | literal value => exact .simple (relates.literal value) rfl
  | parameter index => exact .simple (relates.parameter index) rfl
  | raw taken => exact .simple (relates.raw taken) rfl
  | column named => exact .simple (relates.column named) rfl
  | rowOf table =>
    exact .simple (relates.append (relates.row table) (relates.mark (by decide))) rfl
  | allColumns => exact .simple (relates.mark (by decide : "*" ∈ marks)) rfl
  | truth value =>
    refine relates.composite rfl rfl relates.empty ?_
    cases value <;> exact relates.mark (by decide)
  | rowCount =>
    exact relates.composite rfl rfl (relates.keyword (by decide)) (relates.mark (by decide))
  | call named _ inductionHypothesis =>
    exact relates.composite rfl rfl (relates.function named)
      (relates.commaList (each_map fun t member => (inductionHypothesis t member).whole))
  | negate _ inductionHypothesis =>
    exact relates.composite rfl rfl relates.empty
      (relates.append (relates.mark (by decide)) inductionHypothesis.whole)
  | infixed known _ _ inductionLeft inductionRight =>
    exact relates.composite rfl rfl relates.empty (relates.append (relates.append
      inductionLeft.whole (relates.spaced (List.mem_append_left _ known))) inductionRight.whole)
  | not _ inductionHypothesis =>
    exact relates.composite rfl rfl relates.empty (relates.append
      (relates.append (relates.keyword (by decide)) relates.blank) inductionHypothesis.whole)
  | isTrue _ inductionHypothesis =>
    exact relates.composite rfl rfl relates.empty (relates.append
      (relates.append inductionHypothesis.whole relates.equality) (relates.literal _))
  | nullTest negated _ inductionHypothesis =>
    refine relates.composite rfl rfl relates.empty (relates.append
      (relates.append inductionHypothesis.whole relates.blank) (relates.keyword ?_))
    cases negated <;> decide
  | oneOf _ _ inductionOperand inductionEach =>
    exact relates.composite rfl rfl relates.empty (relates.append (relates.append
      inductionOperand.whole (relates.spaced (by decide))) (relates.brackets
        (relates.commaList (each_map fun t member => (inductionEach t member).whole))))
  | caseOf branches named =>
    refine relates.composite rfl rfl relates.empty ?_
    exact relates.append (relates.append (relates.append (relates.append (relates.append
      (relates.keyword (by decide)) relates.blank) (relates.column named))
        (relates.branches branches)) relates.blank) (relates.keyword (by decide))
  | subselect named _ inductionHypothesis =>
    exact relates.composite rfl rfl relates.empty
      (relates.select_of_terms named fun t member => (inductionHypothesis t member).whole)
  | nonempty named _ inductionHypothesis =>
    exact relates.composite rfl rfl (relates.keyword (by decide))
      (relates.select_of_terms named fun t member => (inductionHypothesis t member).whole)

theorem term {t : Term} (made : t.MadeOf valid own raw) : related (t.text first) (t.text second) :=
  (relates.both made).whole

theorem select {select : Select} (made : select.MadeOf valid own raw) :
    related (select.text first) (select.text second) :=
  relates.select_of_terms made.named fun t member => relates.term (made.terms t member)

end Relates

end ObjectQuery.Sql
