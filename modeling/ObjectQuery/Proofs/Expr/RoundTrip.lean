import ObjectQuery.Expr.Equality
import ObjectQuery.Proofs.Expr.Reading
import ObjectQuery.Proofs.Expr.Rereading.Paths
import ObjectQuery.Proofs.Expr.Rereading.Queries

/-!
Contract: printing undoes reading.

A tree that was read is readable, and a readable tree is read back from its text just when none of
its names is taken for a word that a form looks for in front of an expression: behind the
parenthesis that printing adds, such a name is that word.

Owns:
- `Expr.readsBack` and `Query.readsBack_of_readable`, and what they say of whole texts;
- a readable tree is the same as itself;
- `parse_text_of_parse` and `parse_text_iff_sheltered`.

Does not own: conditions, which are read as expressions.
-/

namespace ObjectQuery

open Grammar

/-! ### Every readable tree is read back -/

section

variable {source : List Char} {e : Expr}

/-- A readable node is read back if its parts are. -/
theorem Expr.readsBack_of_parts
    (readable : e.Readable)
    (back : ∀ part ∈ e.parts, part.ReadsBack source) :
    e.ReadsBack source := by
  cases e with
  | literal value => exact readsBack_literal readable
  | parameter index modifier => exact readsBack_parameter readable.1 readable.2
  | path p => exact readsBack_path readable
  | raw text => exact readsBack_raw readable
  | boolean value => exact readsBack_boolean value
  | count owner collection => exact readsBack_count readable
  | asterisk owner => exact readsBack_asterisk readable
  | classTag owner => exact readsBack_classTag readable
  | negate operand => exact readsBack_negate (back operand (by simp [parts, operands]))
  | not operand => exact readsBack_not (back operand (by simp [parts, operands]))
  | nullTest operand negated =>
    exact readsBack_nullTest negated (back operand (by simp [parts, operands]))
  | binary op left right =>
    exact readsBack_binary op (back left (by simp [parts, operands]))
      (back right (by simp [parts, operands]))
  | relational op left right =>
    exact readsBack_relational op (back left (by simp [parts, operands]))
      (back right (by simp [parts, operands]))
  | and left right =>
    exact readsBack_and (back left (by simp [parts, operands]))
      (back right (by simp [parts, operands]))
  | or left right =>
    exact readsBack_or (back left (by simp [parts, operands]))
      (back right (by simp [parts, operands]))
  | oneOf operand candidates =>
    rw [parts_oneOf] at back
    exact readsBack_oneOf (back operand (List.mem_cons_self ..))
      fun candidate member => back candidate (List.mem_cons_of_mem operand member)
  | call function arguments =>
    rw [parts_call] at back
    exact readsBack_call readable.1 back
  | contains owner collection element =>
    rw [parts_contains] at back
    exact readsBack_contains readable.1 (back element (List.mem_singleton.mpr rfl))
  | query q => exact readsBack_query (Query.readsBack_of_clauses readable back)
  | nonempty q => exact readsBack_nonempty (Query.readsBack_of_clauses readable back)

theorem Expr.readsBack (readable : e.Readable) : e.ReadsBack source := by
  induction e using parts_induction with
  | step e inductionHypothesis =>
    refine readsBack_of_parts readable fun part member => ?_
    exact inductionHypothesis part member (readable_of_mem_parts readable member)

theorem Query.readsBack
    {q : Query}
    (readable : q.Readable) :
    q.ReadsBack source :=
  Query.readsBack_of_clauses readable fun _ member =>
    Expr.readsBack (readable_of_mem_clauses readable member)

end

/-! ### Whole texts -/

/-- A text whose tokens are those of a value is read as the value just when it is sheltered. -/
theorem Grammar.parseText_eq_ok_iff
    {α : Type}
    {form : List Char → Nat → List Token → Except Stop (α × List Token)}
    {text : String}
    {tokens : List Token}
    {value : α}
    {sheltered : Prop}
    (scans : Token.Scans 0 text.toList tokens)
    (rereads : Rereads (form text.toList) (16 * tokens.length + 16) tokens value sheltered []) :
    parseText form text = .ok value ↔ sheltered := by
  have scanned : Token.scan text = .ok tokens := Token.scanFrom_eq_ok_iff.mpr scans
  have only := rereads.only (budgetFor tokens.length) []
  rw [parseText, scanned, ok_bind, whole]
  constructor
  · intro read
    split at read
    · rename_i found readFound
      obtain rfl : found = value := by simpa [Except.mapError] using read
      rw [← List.append_nil tokens] at readFound
      exact (only (by simpa using readFound)).2
    · simp [Except.mapError] at read
    · simp [Except.mapError] at read
  · intro holds
    have read := rereads.reads holds (budgetFor tokens.length) (by simp [budgetFor, Nat.mul_add])
    rw [List.append_nil] at read
    rw [read]
    rfl

theorem Expr.ReadsBack.parseExpression_iff
    {e : Expr}
    (back : e.ReadsBack e.text.toList) :
    parseExpression e.text = .ok e ↔ e.Sheltered := by
  obtain ⟨tokens, scans, isGroup⟩ := back 0 (placed_whole e.text.toList)
  exact parseText_eq_ok_iff scans ((isGroup.rereadsDisjunction (by simp)).mono (by omega))

theorem Query.ReadsBack.parseQuery_iff
    {q : Query}
    (back : q.ReadsBack q.text.toList) :
    parseQuery q.text = .ok q ↔ q.Sheltered := by
  obtain ⟨tokens, scans, -, rereads⟩ := back 0 (placed_whole q.text.toList)
  exact parseText_eq_ok_iff scans ((rereads [] (by simp)).mono (by omega))

/-! ### Trees without words of the language as names -/

/-- The tree is read back wherever its text is placed, and is sheltered. -/
structure Expr.ReadsBackWhole (source : List Char) (e : Expr) : Prop where
  back : e.ReadsBack source
  sheltered : e.Sheltered

/-- The query is read back wherever its text is placed, and is sheltered. -/
structure Query.ReadsBackWhole (source : List Char) (q : Query) : Prop where
  back : q.ReadsBack source
  sheltered : q.Sheltered

theorem Expr.ReadsBackWhole.parseExpression
    {e : Expr}
    (whole : e.ReadsBackWhole e.text.toList) :
    parseExpression e.text = .ok e :=
  whole.back.parseExpression_iff.mpr whole.sheltered

theorem Query.ReadsBackWhole.parseQuery
    {q : Query}
    (whole : q.ReadsBackWhole q.text.toList) :
    parseQuery q.text = .ok q :=
  whole.back.parseQuery_iff.mpr whole.sheltered

/-- A readable tree is read back when none of its names is a word that a form looks for. -/
theorem Expr.readsBack_of_readable
    (source : List Char)
    (e : Expr)
    (readable : e.Readable)
    (leading : ∀ name ∈ e.leadingNames, IsLeading name) :
    e.ReadsBackWhole source where
  back := readsBack readable
  sheltered := sheltered_of_leadingNames leading

theorem Query.readsBack_of_readable
    (source : List Char)
    (q : Query)
    (readable : q.Readable)
    (leading : ∀ name ∈ q.leadingNames, IsLeading name) :
    q.ReadsBackWhole source where
  back := readsBack readable
  sheltered :=
    (Expr.sheltered_of_leadingNames (show ∀ name ∈ (Expr.query q).leadingNames, _ from leading)).2

/-! ### A readable tree is the same as itself -/

theorem Value.same_self {value : Value} (readable : value.Readable) : value.same value = true := by
  cases value with
  | null => rfl
  | integer n => simp [Value.same]
  | decimal d => simp [Value.same, Decimal.sameNumber, Decimal.compare]
  | string text => simp [Value.same]
  | _ => exact absurd readable (by simp [Value.Readable])

mutual

theorem Expr.same_self : ∀ e : Expr, e.Readable → e.same e = true
  | .literal _, readable => by simp [Expr.same, Value.same_self readable]
  | .parameter .., _ => by simp [Expr.same]
  | .path _, _ => by simp [Expr.same]
  | .binary _ left right, readable => by
    simp [Expr.same, Expr.same_self left readable.1, Expr.same_self right readable.2]
  | .negate operand, readable => by simp [Expr.same, Expr.same_self operand readable]
  | .call _ arguments, readable => by simp [Expr.same, Expr.sameList_self arguments readable.2]
  | .raw _, _ => by simp [Expr.same]
  | .query q, readable => by simp [Expr.same, Query.same_self q readable]
  | .and left right, readable => by
    simp [Expr.same, Expr.same_self left readable.1, Expr.same_self right readable.2]
  | .or left right, readable => by
    simp [Expr.same, Expr.same_self left readable.1, Expr.same_self right readable.2]
  | .not operand, readable => by simp [Expr.same, Expr.same_self operand readable]
  | .relational _ left right, readable => by
    simp [Expr.same, Expr.same_self left readable.1, Expr.same_self right readable.2]
  | .oneOf operand candidates, readable => by
    simp [Expr.same, Expr.same_self operand readable.1, Expr.sameList_self candidates readable.2]
  | .nullTest operand _, readable => by simp [Expr.same, Expr.same_self operand readable]
  | .boolean _, _ => by simp [Expr.same]
  | .nonempty q, readable => by simp [Expr.same, Query.same_self q readable]
  | .count .., _ => by simp [Expr.same]
  | .contains _ _ element, readable => by simp [Expr.same, Expr.same_self element readable.2]
  | .asterisk _, _ => by simp [Expr.same]
  | .classTag _, _ => by simp [Expr.same]

theorem Expr.sameList_self : ∀ es : List Expr, Expr.ReadableEach es → Expr.sameList es es = true
  | [], _ => by simp [Expr.sameList]
  | e :: es, readable => by
    simp [Expr.sameList, Expr.same_self e readable.1, Expr.sameList_self es readable.2]

theorem Expr.sameOption_self :
    ∀ e : Option Expr, Expr.ReadableOption e → Expr.sameOption e e = true
  | none, _ => by simp [Expr.sameOption]
  | some e, readable => by simp [Expr.sameOption, Expr.same_self e readable]

theorem SelectItem.sameList_self :
    ∀ items : List SelectItem, SelectItem.ReadableEach items →
      SelectItem.sameList items items = true
  | [], _ => by simp [SelectItem.sameList]
  | ⟨expression, _⟩ :: items, readable => by
    simp [SelectItem.sameList, Expr.same_self expression readable.1,
      SelectItem.sameList_self items readable.2.2]

theorem OrderItem.sameList_self :
    ∀ items : List OrderItem, OrderItem.ReadableEach items → OrderItem.sameList items items = true
  | [], _ => by simp [OrderItem.sameList]
  | ⟨expression, _⟩ :: items, readable => by
    simp [OrderItem.sameList, Expr.same_self expression readable.1,
      OrderItem.sameList_self items readable.2]

theorem Query.same_self : ∀ q : Query, q.Readable → q.same q = true
  | ⟨_, select, _, condition, groupBy, having, orderBy⟩, readable => by
    obtain ⟨⟨-, select'⟩, -, condition', groupBy', having', orderBy'⟩ := readable
    simp [Query.same, SelectItem.sameList_self select select',
      Expr.sameOption_self condition condition', Expr.sameList_self groupBy groupBy',
      Expr.sameOption_self having having', OrderItem.sameList_self orderBy orderBy']

end

/-! ### The round trip -/

/-- The text of a tree that was read is read as the same tree, for expressions and for queries. -/
theorem parse_text_of_parse (source : String) :
    (∀ e, parseExpression source = .ok e →
      (∀ name ∈ e.leadingNames, name.toLower ∉ openingWords) →
        parseExpression e.text = .ok e ∧ e.same e = true) ∧
    (∀ q, parseQuery source = .ok q →
      (∀ name ∈ q.leadingNames, name.toLower ∉ openingWords) →
        parseQuery q.text = .ok q ∧ q.same q = true) := by
  constructor
  · intro e read leading
    have readable := readable_of_parseExpression read
    have back := Expr.readsBack_of_readable e.text.toList e readable leading
    exact ⟨back.parseExpression, Expr.same_self e readable⟩
  · intro q read leading
    have readable := readable_of_parseQuery read
    have back := Query.readsBack_of_readable q.text.toList q readable leading
    exact ⟨back.parseQuery, Query.same_self q readable⟩

/-- A collection test and a query with a nested one, each written in its short form. -/
theorem parse_text_of_parse_short_forms :
    (∃ e, parseExpression "Lines.contains(Line where price > 1.5)" = .ok e ∧
      parseExpression e.text = .ok e ∧ e.same e = true) ∧
    (∃ q, parseQuery "select name as who from Client where exists(Order where size in ({0:x}))" =
      .ok q ∧ parseQuery q.text = .ok q ∧ q.same q = true) := by
  have linesLower : "Lines".toLower = "lines" := Text.toLower_eq (by decide)
  have priceLower : "price".toLower = "price" := Text.toLower_eq (by decide)
  have nameLower : "name".toLower = "name" := Text.toLower_eq (by decide)
  have sizeLower : "size".toLower = "size" := Text.toLower_eq (by decide)
  have read : parseExpression "Lines.contains(Line where price > 1.5)" =
      .ok (.contains [] "Lines" (.relational .greater (.path ⟨[], "price"⟩)
        (.literal (.decimal ⟨false, 15, 1, by decide, by decide⟩)))) := by cbv
  have readQuery : parseQuery
      "select name as who from Client where exists(Order where size in (\x7b0:x\x7d))" =
      .ok ⟨false, [⟨.path ⟨[], "name"⟩, some "who"⟩], [⟨"Client", none⟩],
        some (.nonempty (.selectAll "Order"
          (some (.oneOf (.path ⟨[], "size"⟩) [.parameter 0 (some "x")])))),
        [], none, []⟩ := by cbv
  refine ⟨⟨_, read, (parse_text_of_parse _).1 _ read ?_⟩,
    ⟨_, readQuery, (parse_text_of_parse _).2 _ readQuery ?_⟩⟩
  · simp [Expr.leadingNames, Path.segments, linesLower, priceLower, openingWords]
  · simp [Query.leadingNames, SelectItem.leadingNamesEach, Expr.leadingNamesOption,
      Expr.leadingNames, Expr.leadingNamesEach, OrderItem.leadingNamesEach, Query.selectAll,
      Path.segments, nameLower, sizeLower, openingWords]

/-! ### Words of the language as names -/

/-- The text of a tree that was read is accepted and read as the same tree, whatever its names are,
just when none of them is taken for a word that is looked for where it stands. -/
theorem parse_text_iff_sheltered (source : String) :
    (∀ e, parseExpression source = .ok e → (parseExpression e.text = .ok e ↔ e.Sheltered)) ∧
    (∀ q, parseQuery source = .ok q → (parseQuery q.text = .ok q ↔ q.Sheltered)) := by
  constructor
  · intro e read
    have back : e.ReadsBack e.text.toList := Expr.readsBack (readable_of_parseExpression read)
    exact back.parseExpression_iff
  · intro q read
    have back : q.ReadsBack q.text.toList := Query.readsBack (readable_of_parseQuery read)
    exact back.parseQuery_iff

/-- `1 = not.select` -/
def oneIsNotSelect : Expr :=
  .relational .equal (.literal (.integer ⟨.w32, 1, by decide⟩)) (.path ⟨["not"], "select"⟩)

theorem everywhere_shelters_oneIsNotSelect : oneIsNotSelect.Everywhere Expr.Shelters :=
  Expr.everywhere_of_pair (by decide) rfl (Expr.everywhere_of_leaf (by decide) rfl)
    (Expr.everywhere_of_leaf (by decide) rfl)

/-- `not` behind a comparison and `distinct` behind a first select item are names. -/
theorem parse_text_of_sheltered_keywords :
    (parseExpression "1 = not.select" = .ok oneIsNotSelect ∧
      parseExpression oneIsNotSelect.text = .ok oneIsNotSelect) ∧
    (∃ q, parseQuery "select name, distinct from Client where 1 = not.select" = .ok q ∧
      parseQuery q.text = .ok q) := by
  have nameLower : "name".toLower = "name" := Text.toLower_eq (by decide)
  have distinctLower : "distinct".toLower = "distinct" := Text.toLower_eq (by decide)
  have read : parseExpression "1 = not.select" = .ok oneIsNotSelect := by cbv
  have readQuery : parseQuery "select name, distinct from Client where 1 = not.select" =
      .ok ⟨false, [⟨.path ⟨[], "name"⟩, none⟩, ⟨.path ⟨[], "distinct"⟩, none⟩],
        [⟨"Client", none⟩], some oneIsNotSelect, [], none, []⟩ := by cbv
  have sheltered : oneIsNotSelect.Sheltered := ⟨by decide, everywhere_shelters_oneIsNotSelect⟩
  refine ⟨⟨read, ((parse_text_iff_sheltered _).1 _ read).mpr sheltered⟩,
    ⟨_, readQuery, ((parse_text_iff_sheltered _).2 _ readQuery).mpr ?_⟩⟩
  refine Expr.everywhere_iff.mpr ⟨Expr.shelters_iff.mpr ?_, ?_⟩
  · simp [Expr.exposed, Query.exposed, Query.clauses, Expr.opening?, Path.segments,
      oneIsNotSelect, nameLower, distinctLower]
  · simpa [Expr.parts, Expr.operands, Expr.clauses, Query.clauses] using
      ⟨Expr.everywhere_of_leaf (by decide) rfl, Expr.everywhere_of_leaf (by decide) rfl,
        everywhere_shelters_oneIsNotSelect⟩

/-- `1 = not + 2` -/
def oneIsNotPlusTwo : Expr :=
  .relational .equal (.literal (.integer ⟨.w32, 1, by decide⟩))
    (.binary .add (.path ⟨[], "not"⟩) (.literal (.integer ⟨.w32, 2, by decide⟩)))

/-- Behind the parenthesis of the sum, `not` is taken for a negation: the text is rejected. -/
theorem rejected_text_of_oneIsNotPlusTwo :
    parseExpression "1 = not + 2" = .ok oneIsNotPlusTwo ∧
      oneIsNotPlusTwo.text = "(1 = (not + 2))" ∧
      parseExpression oneIsNotPlusTwo.text =
        .error (.unexpectedToken .expression ⟨.plus, "+", 10⟩) := by
  have text : oneIsNotPlusTwo.text = "(1 = (not + 2))" := rfl
  refine ⟨by cbv, text, ?_⟩
  rw [text]
  cbv

end ObjectQuery
