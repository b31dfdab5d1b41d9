import ObjectQuery.Proofs.Expr.Signs
import ObjectQuery.Proofs.Expr.Strings
import ObjectQuery.Proofs.Sql.Spelling

/-!
Contract: the text of a statement is a template that the contents of literals fill.

Each kind of term is written around the texts of its parts, and two characters that open a comment
come to touch only where a number with a sign is negated.

Owns: `Spelled`, with one law for each kind of term, and `shaped_select`.

Does not own: which terms an expression is translated into.
-/

namespace ObjectQuery

open Text (Strings Shaped ShapedEach Separator)

namespace Sql

/-- The texts of a term are a template, which opens a comment unless a condition holds, and begins
with a minus sign under another condition. -/
structure Spelled (strict : Prop) (config : Config) (t : Strings → Term) (free minus : Prop) :
    Prop where
  shaped : Shaped strict (fun strings => (t strings).text config) free
  begins : strict → ∀ strings, ((t strings).text config).toList.head? = some '-' ↔ minus

/-- The texts of several terms are templates. -/
def SpelledEach (strict : Prop) (config : Config) (ts : Strings → List Term) (free : Prop) : Prop :=
  ShapedEach strict (fun strings => Term.texts config (ts strings)) free

variable {strict : Prop} {config : Config}

/-! ## Terms -/

namespace Spelled

variable {t t' : Strings → Term} {a b minus minus' : Prop}

theorem congr (spelled : Spelled strict config t a minus)
    (sameFree : b ↔ a) (sameMinus : minus' ↔ minus) : Spelled strict config t b minus' := by
  rw [propext sameFree, propext sameMinus]
  exact spelled

theorem under (spelled : Spelled strict config t a minus) (index : Nat) :
    Spelled strict config (fun strings => t (strings.under index)) a minus :=
  ⟨spelled.shaped.under index, fun isStrict _ => spelled.begins isStrict _⟩

/-- A text that begins with mild characters. -/
theorem of_opening {opening : String} {rest : Strings → String}
    (mild : IsMild strict opening)
    (nonempty : opening.toList ≠ [])
    (sameText : ∀ strings, (t strings).text config = opening ++ rest strings)
    (shaped : Shaped strict rest a) : Spelled strict config t a False := by
  refine ⟨(shaped.behind (mild.separator nonempty)).of_eq sameText, fun isStrict strings => ?_⟩
  rw [sameText, String.toList_append, List.head?_append_of_ne_nil _ nonempty]
  exact iff_false_intro (mild.head?_ne isStrict)

/-- A text of mild characters. -/
theorem of_mild {t : Term} (mild : IsMild strict (t.text config))
    (nonempty : (t.text config).toList ≠ []) : Spelled strict config (fun _ => t) True False :=
  of_opening mild nonempty (fun _ => String.append_empty.symm) .empty

theorem bracketed {rest : Strings → String}
    (sameText : ∀ strings, (t strings).text config = "(" ++ rest strings)
    (shaped : Shaped strict rest a) : Spelled strict config t a False :=
  of_opening isMild_opening (by simp) sameText shaped

end Spelled

theorem head?_literal (isStrict : strict) (value : Value) :
    (config.literal value).toList.head? = some '-' ↔
      value.isNumeric = true ∧ value.text.toList.head? = some '-' := by
  cases value with
  | null =>
    have mild : IsMild strict (config.keyword "null") := isMild_keyword config (by simp)
    exact iff_of_false (mild.head?_ne isStrict) (by simp [Value.isNumeric, Value.rank?])
  | boolean b =>
    refine iff_of_false ?_ (by simp [Value.isNumeric, Value.rank?])
    simp only [Config.literal]
    cases config.dialect <;> cases b <;> simp [Dialect.booleanText]
  | string _ | dateTime _ =>
    refine iff_of_false ?_ (by simp [Value.isNumeric, Value.rank?])
    simp [Config.literal, Text.quote, Text.Quoted.quoteWith]
  | integer _ | decimal _ | float _ | double _ =>
    exact (and_iff_right rfl).symm

theorem spelled_literal (value : Value) :
    Spelled strict config (fun strings => .literal (value.refill (strings []))) True
      (Expr.literal value).IsSigned := by
  have sameBegin (content : String) (isStrict : strict) :
      (config.literal (value.refill content)).toList.head? = some '-' ↔
        (Expr.literal value).IsSigned := by
    rw [head?_literal isStrict]
    cases value with
    | string _ => simp [Value.refill, Value.isNumeric, Value.rank?, Expr.IsSigned]
    | _ => exact Iff.rfl
  refine ⟨?_, fun isStrict strings => sameBegin _ isStrict⟩
  cases value with
  | string _ => exact .literal (.node [])
  | _ => exact shaped_literal config _

/-- A literal that does not depend on the query. -/
theorem spelled_constant {value : Value} (noNumber : value.isNumeric = false) :
    Spelled strict config (fun _ => .literal value) True False := by
  refine ⟨shaped_literal config value, fun isStrict _ => ?_⟩
  exact (head?_literal isStrict value).trans (by simp [noNumber])

theorem spelled_truth (value : Bool) : Spelled strict config (fun _ => .truth value) True False :=
  .of_mild (by cases value <;> simp [Term.text, truthText, IsMild, Text.Mild])
    (by cases value <;> simp [Term.text, truthText])

theorem spelled_parameter (index : Nat) :
    Spelled strict config (fun _ => .parameter index) True False :=
  .of_mild (isMild_parameter config index)
    (by cases dialect : config.dialect <;>
      simp [Term.text, Config.parameter, Dialect.placeholder, dialect])

theorem spelled_column {ref : ColumnRef} (mild : IsMild strict ref.column) :
    Spelled strict config (fun _ => .column ref) True False :=
  .of_mild (isMild_column config mild) (by simp [Term.text, ColumnRef.text, Config.column])

theorem shaped_star : Shaped strict (fun _ => "*") True :=
  .plain (by simp) fun _ => List.isChain_singleton _

theorem spelled_allColumns : Spelled strict config (fun _ => .allColumns) True False :=
  ⟨shaped_star, fun _ _ => by simp [Term.text]⟩

theorem spelled_rowOf (row : RowAlias) : Spelled strict config (fun _ => .rowOf row) True False := by
  have opening : IsMild strict (config.identifier row.text ++ ".") :=
    (isMild_identifier config (isMild_rowAlias row)).append (by simp [IsMild, Text.Mild])
  exact .of_opening opening (by simp) (fun _ => by simp [Term.text, String.append_assoc]) shaped_star

theorem spelled_rowCount : Spelled strict config (fun _ => .rowCount) True False := by
  have opening : IsMild strict (config.keyword "count" ++ "(") :=
    (isMild_keyword config (by simp)).append isMild_opening
  exact .of_opening opening (by simp) (fun _ => by simp [Term.text, String.append_assoc])
    (shaped_star.before separator_closing)

section

variable {t t' : Strings → Term} {ts : Strings → List Term} {a b minus minus' : Prop}

theorem spelled_call {function : String}
    (mild : IsMild strict function)
    (ofEach : SpelledEach strict config ts a) :
    Spelled strict config (fun strings => .call function (ts strings)) a False :=
  .of_opening (mild.append isMild_opening) (by simp)
    (fun _ => by simp [Term.text, Text.commaList, String.append_assoc])
    ((ofEach.intercalate separator_comma).before separator_closing)

/-- The sign of a negation touches that of a number. -/
theorem spelled_negate (spelled : Spelled strict config t a minus) :
    Spelled strict config (fun strings => .negate (t strings)) (a ∧ ¬minus) False :=
  ⟨spelled.shaped.negated spelled.begins, fun _ strings => by simp [Term.text]⟩

theorem spelled_infixed {operator : String}
    (between : Separator strict (config.spaced operator).toList)
    (ofLeft : Spelled strict config t a minus)
    (ofRight : Spelled strict config t' b minus') :
    Spelled strict config (fun strings => .infixed operator (t strings) (t' strings)) (a ∧ b)
      False :=
  .bracketed (fun _ => by simp [Term.text, String.append_assoc])
    ((ofLeft.shaped.separated between ofRight.shaped).before separator_closing)

theorem spelled_not (spelled : Spelled strict config t a minus) :
    Spelled strict config (fun strings => .not (t strings)) a False := by
  have opening : IsMild strict (config.keyword "not" ++ " ") :=
    (isMild_keyword config (by simp)).append isMild_blank
  exact .bracketed (fun _ => by simp [Term.text, String.append_assoc])
    ((spelled.shaped.behind (opening.separator (by simp))).before separator_closing)

theorem spelled_isTrue (spelled : Spelled strict config t a minus) :
    Spelled strict config (fun strings => .isTrue (t strings)) a False := by
  have equality : IsMild strict " = " := by simp [IsMild, Text.Mild]
  have compared := spelled.shaped.separated (equality.separator (by simp))
    (shaped_literal config (.boolean true))
  exact .bracketed (fun _ => by simp [Term.text, String.append_assoc])
    ((compared.congr (fun _ => rfl) (by simp)).before separator_closing)

theorem spelled_nullTest (negated : Bool) (spelled : Spelled strict config t a minus) :
    Spelled strict config (fun strings => .nullTest (t strings) negated) a False := by
  have closing : IsMild strict
      (" " ++ config.keyword (if negated then "is not null" else "is null") ++ ")") := by
    refine (isMild_blank.append (isMild_keyword config ?_)).append isMild_closing
    cases negated <;> simp
  exact .bracketed (fun _ => by simp [Term.text, String.append_assoc])
    (spelled.shaped.before (closing.separator (by simp)))

theorem spelled_oneOf
    (spelled : Spelled strict config t a minus)
    (ofEach : SpelledEach strict config ts b) :
    Spelled strict config (fun strings => .oneOf (t strings) (ts strings)) (a ∧ b) False := by
  have opening : IsMild strict (config.spaced "in" ++ "(") :=
    (isMild_spaced config "in" (by simp)).append isMild_opening
  have closing : IsMild strict "))" := by simp [IsMild, Text.Mild]
  exact .bracketed (fun _ => by simp [Term.text, Text.commaList, String.append_assoc])
    ((spelled.shaped.separated (opening.separator (by simp))
      (ofEach.intercalate separator_comma)).before (closing.separator (by simp)))

theorem spelled_caseOf {selector : ColumnRef} (branches : List (Value × String))
    (mild : IsMild strict selector.column) :
    Spelled strict config (fun _ => .caseOf selector branches) True False := by
  have opening : IsMild strict (config.keyword "case" ++ " " ++ selector.text config) :=
    ((isMild_keyword config (by simp)).append isMild_blank).append (isMild_column config mild)
  have closing : IsMild strict (" " ++ config.keyword "end" ++ ")") :=
    (isMild_blank.append (isMild_keyword config (by simp))).append isMild_closing
  exact .bracketed (fun _ => by simp [Term.text, String.append_assoc])
    ((shaped_append_branches config branches (.of_mild opening)).before
      (closing.separator (by simp)))

theorem spelled_hostTyped (role : Role) (spelled : Spelled strict config t a False) :
    Spelled strict config (fun strings => role.hostTyped (t strings)) a False := by
  cases role with
  | condition => exact spelled_isTrue spelled
  | value | plain => exact spelled

theorem spelled_boolean (role : Role) (value : Bool) :
    Spelled strict config (fun _ => role.boolean value) True False := by
  cases role with
  | value => exact spelled_constant rfl
  | condition | plain => exact spelled_truth value

end

/-! ## Operators -/

/-- A word that is the same in capitals. -/
theorem keyword_of_upper_eq {word : String} (same : Text.upper word = word) :
    config.keyword word = word := by
  rw [Config.keyword]
  split
  · exact same
  · rfl

theorem separator_arithmetic (op : ArithmeticOp) :
    Separator strict (config.spaced op.symbol).toList := by
  rw [Config.spaced, keyword_of_upper_eq (by cases op <;> decide)]
  cases op <;> constructor <;>
    simp [ArithmeticOp.symbol, Text.CommentFree, Text.OpensComment, Text.Mild]

theorem separator_relational (op : RelationalOp) :
    Separator strict (config.spaced op.symbol).toList := by
  have isMild : IsMild strict (config.keyword op.symbol) := by
    cases op with
    | like => exact isMild_keyword config (by simp [RelationalOp.symbol])
    | _ =>
      rw [RelationalOp.symbol, keyword_of_upper_eq (by decide)]
      simp [IsMild, Text.Mild]
  exact ((isMild_blank.append isMild).append isMild_blank).separator (by simp)

/-! ## Statements -/

/-- The texts of conditions are templates. -/
def SpelledConditions (strict : Prop) (config : Config) (conditions : Strings → List Condition)
    (free : Prop) : Prop :=
  ShapedEach strict (fun strings => Condition.texts config (conditions strings)) free

theorem Condition.texts_append (first second : List Condition) :
    Condition.texts config (first ++ second) =
      Condition.texts config first ++ Condition.texts config second := by
  induction first with
  | nil => rfl
  | cons condition rest inductionHypothesis =>
    cases condition <;> simp [Condition.texts, inductionHypothesis]

theorem isMild_equality {left right : ColumnRef}
    (ofLeft : IsMild strict left.column)
    (ofRight : IsMild strict right.column) :
    IsMild strict (left.text config ++ " = " ++ right.text config) :=
  ((isMild_column config ofLeft).append (by simp [IsMild, Text.Mild])).append
    (isMild_column config ofRight)

/-- Conditions that do not depend on the query. -/
theorem spelledConditions_of_mild {conditions : List Condition}
    (mild : ∀ condition ∈ conditions, condition.Named (IsMild strict)) :
    SpelledConditions strict config (fun _ => conditions) True := by
  induction conditions with
  | nil => exact .nil
  | cons condition rest inductionHypothesis =>
    obtain ⟨ofFirst, ofRest⟩ := List.forall_mem_cons.mp mild
    have others := inductionHypothesis ofRest
    cases condition with
    | restriction kept =>
      exact (ShapedEach.cons (shaped_restriction config ofFirst) others).congr (fun _ => rfl) (by simp)
    | sameColumn left right =>
      have equality : IsMild strict (left.text config ++ " = " ++ right.text config) :=
        isMild_equality ofFirst.1 ofFirst.2
      exact (ShapedEach.cons (.of_mild equality) others).congr (fun _ => rfl) (by simp)
    | hasValue _ _ => exact ofFirst.elim
    | term _ => exact ofFirst.elim

section

variable {t : Strings → Term} {first second : Strings → List Condition} {a b minus : Prop}

theorem SpelledConditions.append
    (ofFirst : SpelledConditions strict config first a)
    (ofSecond : SpelledConditions strict config second b) :
    SpelledConditions strict config (fun strings => first strings ++ second strings) (a ∧ b) :=
  (ShapedEach.append ofFirst ofSecond).congr (fun _ => Condition.texts_append _ _) Iff.rfl

theorem spelledConditions_term (spelled : Spelled strict config t a minus) :
    SpelledConditions strict config (fun strings => [.term (t strings)]) a :=
  .singleton spelled.shaped

theorem spelledConditions_hasValue {left : ColumnRef}
    (mild : IsMild strict left.column)
    (spelled : Spelled strict config t a minus) :
    SpelledConditions strict config (fun strings => [.hasValue left (t strings)]) a := by
  have opening : IsMild strict (left.text config ++ " = ") :=
    (isMild_column config mild).append (by simp [IsMild, Text.Mild])
  exact .singleton (spelled.shaped.behind (opening.separator (by simp)))

end

section

variable {items : Strings → List Item} {sources : List Source}
  {conditions : Strings → List Condition} {groups : Strings → List Term}
  {having : Strings → Option Term} {keys : Strings → List OrderKey} {a b c d e : Prop}

/-- The text of a select whose clauses are templates. -/
theorem shaped_select (distinct : Bool)
    (ofItems : ShapedEach strict (fun strings => Item.texts config (items strings)) a)
    (ofSources : ∀ source ∈ sources, source.Named (IsMild strict))
    (ofConditions : SpelledConditions strict config conditions b)
    (ofGroups : SpelledEach strict config groups c)
    (ofHaving : ShapedEach strict (fun strings => Term.optionTexts config (having strings)) d)
    (ofKeys : ShapedEach strict (fun strings => OrderKey.texts config (keys strings)) e) :
    Shaped strict (fun strings => Select.text config ⟨distinct, items strings, sources,
      conditions strings, groups strings, having strings, keys strings⟩)
      (a ∧ b ∧ c ∧ d ∧ e) := by
  have opening : IsMild strict (config.keyword "select" ++ " "
      ++ if distinct then config.keyword "distinct" ++ " " else "") := by
    refine ((isMild_keyword config (by simp)).append isMild_blank).append ?_
    cases distinct with
    | false => exact List.forall_mem_nil _
    | true => exact (isMild_keyword config (by simp)).append isMild_blank
  have selected := (ofItems.intercalate separator_comma).behind (opening.separator (by simp))
  have fromSources := selected.separated (separator_spaced config "from" (by simp))
    ((shapedEach_sources config ofSources).intercalate separator_comma)
  have filtered := shaped_append_clause config "where" fromSources ofConditions (by simp)
    (separator_spaced config "and" (by simp))
  have grouped := shaped_append_clause config "group by" filtered ofGroups (by simp)
    separator_comma
  have kept := shaped_append_clause config "having" grouped ofHaving (by simp)
    separator_comma
  have ordered := shaped_append_clause config "order by" kept ofKeys (by simp)
    separator_comma
  refine ordered.congr (fun strings => ?_) (by simp [and_assoc])
  -- there is at most one text behind `having`, so nothing stands between several
  have single : clauseText config "having" (Term.optionTexts config (having strings)) "" =
      clauseText config "having" (Term.optionTexts config (having strings)) ", " := by
    cases having strings <;> simp [clauseText, Term.optionTexts]
  rw [Select.text, single]
  rfl

end

end Sql

end ObjectQuery
