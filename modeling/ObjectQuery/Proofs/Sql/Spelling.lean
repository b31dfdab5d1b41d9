import ObjectQuery.Proofs.Sql.Characters
import ObjectQuery.Proofs.Sql.Naming
import ObjectQuery.Proofs.Text.Literals

/-!
Contract: the constant parts of an SQL text as templates.

Owns:
- `IsMild`, the texts without quotes, and where comments matter without the characters of what opens
  a comment;
- that keywords, names, numbers and tables are made of such texts and of literals.

Does not own: what a statement is put together from.
-/

namespace ObjectQuery

open Text (Mild Separator Shaped ShapedEach Slot)

/-- All characters of a text join to anything. -/
def IsMild (strict : Prop) (text : String) : Prop :=
  ∀ c ∈ text.toList, Mild strict c

variable {strict : Prop}

/-! ## Characters -/

theorem mild_of_solid (c : Char) (solid : Text.Solid c) : Mild strict c := by
  refine ⟨?_, fun _ => ⟨?_, ?_, ?_⟩⟩ <;> rintro rfl <;> revert solid <;> simp [Text.Solid]

theorem mild_of_numerical (c : Char) (numerical : Text.Numerical c) : Mild strict c :=
  mild_of_solid c (Text.solid_of_numerical c numerical)

namespace IsMild

variable {first second text : String}

theorem append (ofFirst : IsMild strict first) (ofSecond : IsMild strict second) :
    IsMild strict (first ++ second) :=
  Text.Over.append ofFirst ofSecond

theorem separator (mild : IsMild strict text) (nonempty : text.toList ≠ []) :
    Separator strict text.toList :=
  .of_mild nonempty mild

theorem head?_ne (mild : IsMild strict text) (isStrict : strict) : text.toList.head? ≠ some '-' :=
  fun isHead => ((mild _ (List.mem_of_mem_head? isHead)).2 isStrict).1 rfl

theorem toString_nat (n : Nat) : IsMild strict (toString n) :=
  Text.over_toString mild_of_numerical n

end IsMild

/-! ## Numbers -/

/-- The text of a number that is negative begins with a minus sign, which occurs nowhere else. -/
theorem shaped_of_signed {text : String} (signed : Text.OverSigned (Mild strict) text) :
    Shaped strict (fun _ => text) True := by
  obtain ⟨body, split, mild⟩ := signed
  refine .plain (fun member => ?_) fun isStrict => ?_
  · rcases split with whole | negative
    · exact (mild _ (whole ▸ member)).1 rfl
    · rw [negative, List.mem_cons] at member
      rcases member with isDash | inBody
      · cases isDash
      · exact (mild _ inBody).1 rfl
  · rcases split with whole | negative
    · exact whole ▸ Text.commentFree_of_mild isStrict mild
    · rw [negative]
      exact Text.commentFree_cons_of_mild isStrict mild

theorem isMild_decimal {x : Decimal} (unsigned : x.negative = false) : IsMild strict x.text :=
  Text.over_decimal mild_of_numerical unsigned

/-! ## Keywords and identifiers -/

namespace Sql

/-- Keywords are words in lower case, or several of them. -/
theorem isMild_keyword (config : Config) {word : String}
    (letters : ∀ c ∈ word.toList, c.isLower = true ∨ c = ' ') :
    IsMild strict (config.keyword word) :=
  over_keyword mild_of_solid config fun c member =>
    (letters c member).imp id fun isBlank => ⟨isBlank, by simp [Mild]⟩

theorem isMild_identifier (config : Config) {name : String} (mild : IsMild strict name) :
    IsMild strict (config.identifier name) :=
  over_identifier mild_of_solid config mild

theorem isMild_rowAlias (name : RowAlias) : IsMild strict name.text :=
  over_rowAlias mild_of_numerical name

theorem isMild_column (config : Config) {ref : ColumnRef} (mild : IsMild strict ref.column) :
    IsMild strict (ref.text config) :=
  over_column mild_of_solid config mild

theorem isMild_parameter (config : Config) (index : Nat) :
    IsMild strict ((Term.parameter index).text config) :=
  over_parameter config mild_of_numerical index

/-! ## Literals -/

theorem shaped_literal (config : Config) (value : Value) :
    Shaped strict (fun _ => config.literal value) True := by
  cases value with
  | null => exact .of_mild (isMild_keyword config (by simp))
  | boolean b =>
    refine .of_mild ?_
    simp only [Config.literal]
    cases config.dialect <;> cases b <;> simp [Dialect.booleanText, Mild]
  | string content => exact .literal (.fixed content)
  | dateTime instant => exact .literal (.fixed instant.compactText)
  | integer n => exact shaped_of_signed (Text.signed_integer mild_of_numerical n.value)
  | decimal x => exact shaped_of_signed (Text.signed_decimal mild_of_numerical x)
  | float x => exact shaped_of_signed (Text.signed_binary mild_of_numerical _ _)
  | double x => exact shaped_of_signed (Text.signed_binary mild_of_numerical _ _)

theorem shapedEach_literals (config : Config) (values : List Value) :
    ShapedEach strict (fun _ => values.map config.literal) True := by
  induction values with
  | nil => exact .nil
  | cons value rest inductionHypothesis =>
    simpa using ShapedEach.cons (shaped_literal config value) inductionHypothesis

/-! ## Separators -/

theorem separator_comma : Separator strict ", ".toList :=
  IsMild.separator (by simp [IsMild, Mild]) (by simp)

theorem isMild_blank : IsMild strict " " := by
  simp [IsMild, Mild]

theorem isMild_opening : IsMild strict "(" := by
  simp [IsMild, Mild]

theorem isMild_closing : IsMild strict ")" := by
  simp [IsMild, Mild]

theorem separator_closing : Separator strict ")".toList :=
  isMild_closing.separator (by simp)

theorem isMild_spaced (config : Config) (word : String)
    (letters : ∀ c ∈ word.toList, c.isLower = true ∨ c = ' ') :
    IsMild strict (config.spaced word) :=
  (isMild_blank.append (isMild_keyword config letters)).append isMild_blank

theorem separator_spaced (config : Config) (word : String)
    (letters : ∀ c ∈ word.toList, c.isLower = true ∨ c = ' ') :
    Separator strict (config.spaced word).toList :=
  (isMild_spaced config word letters).separator (by simp [Config.spaced])

/-- Texts in brackets, with a comma between them. -/
theorem shaped_brackets {texts : Text.Strings → List String} {free : Prop} {opening : String}
    (ofEach : ShapedEach strict texts free)
    (before : Separator strict opening.toList) :
    Shaped strict (fun strings => opening ++ Text.commaList (texts strings) ++ ")") free :=
  ((ofEach.intercalate separator_comma).behind before).before separator_closing

/-! ## Tables -/

theorem shaped_restriction (config : Config) {restriction : Restriction}
    (mild : IsMild strict restriction.selector.column) :
    Shaped strict (fun _ => restriction.text config) True := by
  rw [Restriction.text]
  split
  · exact .of_mild (by simp [truthText, Mild])
  · have opening : IsMild strict
        (restriction.selector.text config ++ " " ++ config.keyword "in" ++ " (") :=
      (((isMild_column config mild).append isMild_blank).append
        (isMild_keyword config (by simp))).append (isMild_blank.append isMild_opening)
    exact shaped_brackets (shapedEach_literals config restriction.values)
      (opening.separator (by simp))

theorem isMild_table (config : Config) {table : String} (mild : IsMild strict table)
    (name : RowAlias) : IsMild strict (config.table table name.text) :=
  over_table mild_of_solid config (by simp [Mild]) mild name

section

variable {first : Text.Strings → String} {free : Prop}

/-- A text with a join behind it. -/
theorem shaped_append_join (config : Config) {join : Join}
    (shaped : Shaped strict first free)
    (mild : join.Named (IsMild strict)) :
    Shaped strict (fun strings => first strings ++ join.text config) free := by
  have keyword : IsMild strict (config.keyword JoinKind.leftOuter.keyword) :=
    isMild_keyword config (by simp [JoinKind.keyword])
  have equality : IsMild strict " = " := by simp [IsMild, Mild]
  have onColumns : IsMild strict
      (" " ++ config.keyword JoinKind.leftOuter.keyword ++ " "
        ++ config.table join.table join.name.text ++ " " ++ config.keyword "on" ++ " ("
        ++ join.owner.text config ++ " = " ++ (⟨join.name, join.key⟩ : ColumnRef).text config) :=
    ((((((((isMild_blank.append keyword).append isMild_blank).append
      (isMild_table config mild.table join.name)).append isMild_blank).append
      (isMild_keyword config (by simp))).append (isMild_blank.append isMild_opening)).append
      (isMild_column config mild.owner)).append equality).append (isMild_column config mild.key)
  obtain ⟨table, name, owner, key, restriction⟩ := join
  cases restriction with
  | none =>
    have whole := onColumns.append isMild_closing
    refine (shaped.before (whole.separator (by simp))).of_eq fun _ => ?_
    -- the equations of `Config.join` by its cases take long to derive
    delta Join.text Config.join
    simp
  | some restriction =>
    have conjunction := onColumns.append (isMild_spaced config "and" (by simp))
    have ofRestriction := shaped_restriction config (mild.restriction restriction rfl)
    refine (((shaped.separated (conjunction.separator (by simp)) ofRestriction).congr
      (fun _ => rfl) (and_true free).symm.to_iff).before separator_closing).of_eq fun _ => ?_
    delta Join.text Config.join
    simp [Config.spaced, String.append_assoc]

/-- A text with joins behind it. -/
theorem shaped_append_joins (config : Config) {joins : List Join}
    (shaped : Shaped strict first free)
    (mild : ∀ join ∈ joins, join.Named (IsMild strict)) :
    Shaped strict (fun strings => first strings ++ String.join (joins.map (·.text config))) free := by
  induction joins generalizing first with
  | nil => exact shaped.of_eq fun _ => String.append_empty
  | cons join rest inductionHypothesis =>
    obtain ⟨ofJoin, ofRest⟩ := List.forall_mem_cons.mp mild
    refine (inductionHypothesis (shaped_append_join config shaped ofJoin) ofRest).of_eq fun _ => ?_
    simp [String.append_assoc]

end

theorem shaped_source (config : Config) {source : Source} (mild : source.Named (IsMild strict)) :
    Shaped strict (fun _ => source.text config) True :=
  shaped_append_joins config (.of_mild (isMild_table config mild.table source.name)) mild.joins

theorem shapedEach_sources (config : Config) {sources : List Source}
    (mild : ∀ source ∈ sources, source.Named (IsMild strict)) :
    ShapedEach strict (fun _ => sources.map (·.text config)) True := by
  induction sources with
  | nil => exact .nil
  | cons source rest inductionHypothesis =>
    obtain ⟨ofSource, ofRest⟩ := List.forall_mem_cons.mp mild
    simpa using ShapedEach.cons (shaped_source config ofSource) (inductionHypothesis ofRest)

/-! ## Clauses -/

/-- A text with a clause behind it. -/
theorem shaped_append_clause (config : Config) {first : Text.Strings → String}
    {texts : Text.Strings → List String} {a b : Prop} (word : String) {separator : String}
    (shaped : Shaped strict first a)
    (ofEach : ShapedEach strict texts b)
    (letters : ∀ c ∈ word.toList, c.isLower = true ∨ c = ' ')
    (between : Separator strict separator.toList) :
    Shaped strict (fun strings => first strings ++ clauseText config word (texts strings) separator)
      (a ∧ b) := by
  cases ofEach with
  | nil => exact shaped.congr (fun _ => String.append_empty) (and_true a).to_iff
  | cons ofFirst ofOthers =>
    have whole := (ShapedEach.cons ofFirst ofOthers).intercalate between
    refine (shaped.separated (separator_spaced config word letters) whole).of_eq fun _ => ?_
    simp [clauseText, String.append_assoc]

/-- A text with branches of a case distinction behind it. -/
theorem shaped_append_branches (config : Config) {first : Text.Strings → String} {free : Prop}
    (branches : List (Value × String))
    (shaped : Shaped strict first free) :
    Shaped strict (fun strings => first strings ++ branchesText config branches) free := by
  induction branches generalizing first with
  | nil => exact shaped.of_eq fun _ => String.append_empty
  | cons branch rest inductionHypothesis =>
    obtain ⟨value, name⟩ := branch
    have chosen := (shaped.separated (separator_spaced config "when" (by simp))
      (shaped_literal config value)).separated (separator_spaced config "then" (by simp))
      (shaped_literal config (.string name))
    refine (inductionHypothesis (chosen.congr (fun _ => rfl) (by simp))).of_eq fun _ => ?_
    simp [branchesText, Config.spaced, String.append_assoc]

end Sql

end ObjectQuery
