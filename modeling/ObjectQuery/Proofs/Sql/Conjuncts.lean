import ObjectQuery.Proofs.Sql.Comments
import ObjectQuery.Proofs.Sql.Outlines
import ObjectQuery.Proofs.Text.Words
import ObjectQuery.Proofs.Token.Brackets

/-!
Contract: what the where clause of a select says outside brackets and literals.

A where clause is a list of conjuncts. It narrows the rows of a class to those of its hierarchy as
long as no conjunct shows an `or` of its own.

Owns:
- `Text.Shows`, the words that are seen of a text, and `Condition.loose`, the texts from outside
  that stand in a conjunct without brackets around them;
- that a conjunct shows a connective exactly where one of these does;
- that each select has the restrictions of its classes among its conjuncts.

Does not own: what the engine makes of a where clause.
-/

namespace ObjectQuery

namespace Text

/-- A text shows a word outside its brackets and literals. -/
def Shows (word : List Char) (text : String) : Prop :=
  ∃ seen, outline text = some seen ∧ word ∈ words seen

variable {word seen : List Char} {first gap second text head content : String}

theorem shows_iff (isSeen : outline text = some seen) : Shows word text ↔ word ∈ words seen := by
  constructor
  · rintro ⟨seen', isSeen', member⟩
    obtain rfl := Option.some.inj (isSeen.symm.trans isSeen')
    exact member
  · exact fun member => ⟨seen, isSeen, member⟩

theorem shows_flat_iff (flat : Over Flat text) : Shows word text ↔ word ∈ words text.toList :=
  shows_iff (outline_flat flat)

theorem not_shows_empty (nonempty : word ≠ []) : ¬Shows word "" := by
  rw [shows_flat_iff (by simp [Over])]
  simpa [words] using nonempty

theorem not_shows_of_quiet
    (connective : word ∈ connectives)
    (flat : Over Flat text)
    (quiet : Over Quiet text) : ¬Shows word text := by
  rw [shows_flat_iff flat]
  exact not_mem_words_of_quiet connective quiet

/-- What stands between two texts when it joins no words. -/
def IsGap (gap : String) : Prop :=
  gap.toList ≠ [] ∧ gap.toList.all (fun c => Flat c && !isWordPart c) = true

instance : DecidablePred IsGap :=
  fun gap => inferInstanceAs
    (Decidable (gap.toList ≠ [] ∧ gap.toList.all (fun c => Flat c && !isWordPart c) = true))

/-- Two texts with a gap between them. -/
theorem shows_gap_iff
    (isGap : IsGap gap)
    (nonempty : word ≠ [])
    (ofFirst : Closed first)
    (ofSecond : Closed second) :
    Shows word (first ++ (gap ++ second)) ↔ Shows word first ∨ Shows word second := by
  obtain ⟨seen, isSeen⟩ := ofFirst
  obtain ⟨seen', isSeen'⟩ := ofSecond
  obtain ⟨inhabited, all⟩ := isGap
  have each : ∀ c ∈ gap.toList, Flat c ∧ isWordPart c = false := by
    intro c member
    simpa using List.all_eq_true.mp all c member
  have whole : outline (first ++ (gap ++ second)) = some (seen ++ (gap.toList ++ seen')) :=
    outline_append isSeen (outline_append (outline_flat fun c member => (each c member).1) isSeen')
  rw [shows_iff whole, shows_iff isSeen, shows_iff isSeen']
  exact mem_words_gap_iff inhabited (fun c member => (each c member).2) nonempty

/-- Of a text in brackets the name in front is seen. -/
theorem shows_bracketed_iff
    (nonempty : word ≠ [])
    (ofHead : Closed head)
    (ofContent : Closed content) :
    Shows word (head ++ ("(" ++ content ++ ")")) ↔ Shows word head := by
  obtain ⟨seen, isSeen⟩ := ofHead
  obtain ⟨inside, isInside⟩ := ofContent
  have whole : outline (head ++ ("(" ++ content ++ ")")) = some (seen ++ (['(', ')'] ++ [])) :=
    outline_append isSeen (outline_brackets (Option.isSome_of_mem isInside))
  have none : word ∉ words [] := by simpa [words] using nonempty
  have others : ∀ c ∈ ['(', ')'], isWordPart c = false :=
    List.forall_mem_cons.mpr ⟨rfl, List.forall_mem_singleton.mpr rfl⟩
  rw [shows_iff whole, shows_iff isSeen, mem_words_gap_iff (List.cons_ne_nil _ _) others nonempty]
  exact or_iff_left none

theorem Closed.intercalate {separator : String} {texts : List String}
    (between : Closed separator)
    (each : ∀ text ∈ texts, Closed text) : Closed (separator.intercalate texts) := by
  induction texts with
  | nil => exact closed_of_flat (by simp [Over])
  | cons first rest inductionHypothesis =>
    obtain ⟨ofFirst, ofRest⟩ := List.forall_mem_cons.mp each
    cases rest with
    | nil => exact ofFirst
    | cons second others =>
      rw [String.intercalate_cons_cons]
      exact (ofFirst.append between).append (inductionHypothesis ofRest)

/-- A list of texts whose separator neither shows the word nor joins words. -/
theorem shows_intercalate_iff {separator : String} {texts : List String}
    (nonempty : word ≠ [])
    (between : Closed separator)
    (parts : ∀ first second, Closed first → Closed second →
      (Shows word (first ++ separator ++ second) ↔ Shows word first ∨ Shows word second))
    (each : ∀ text ∈ texts, Closed text) :
    Shows word (separator.intercalate texts) ↔ ∃ text ∈ texts, Shows word text := by
  induction texts with
  | nil => simpa using not_shows_empty nonempty
  | cons first rest inductionHypothesis =>
    obtain ⟨ofFirst, ofRest⟩ := List.forall_mem_cons.mp each
    cases rest with
    | nil => simp
    | cons second others =>
      rw [String.intercalate_cons_cons, parts _ _ ofFirst (.intercalate between ofRest),
        inductionHypothesis ofRest, List.exists_mem_cons_iff (l := second :: others)]

end Text

namespace Sql

open Text (Over Flat Quiet Closed Shows connectives words)

/-- The texts from outside that stand in a term without brackets around them. -/
def Term.loose : Term → List String
  | .raw text => [text]
  | .call function _ => [function]
  | .column ref => [ref.column]
  | _ => []

/-- The texts from outside that stand in a conjunct without brackets around them. -/
def Condition.loose : Condition → List String
  | .restriction kept => if kept.values.isEmpty then [] else [kept.selector.column]
  | .sameColumn left right => [left.column, right.column]
  | .hasValue left right => left.column :: right.loose
  | .term t => t.loose

/-- The where clause behind its keyword, in the text of a select that has one. -/
def Select.conjunction (config : Config) (select : Select) : String :=
  (config.spaced "and").intercalate (select.conditions.map (·.text config))

theorem quiet_of_numerical (c : Char) (numerical : Text.Numerical c) : Quiet c := by
  rcases numerical with isDigit | isMark
  · have noCapital : c.isUpper = false := by
      simp only [Char.isDigit, Bool.and_eq_true, decide_eq_true_eq, UInt32.le_iff_toNat_le] at isDigit
      simp only [Char.isUpper, decide_eq_false_iff_not, UInt32.le_iff_toNat_le]
      simp at isDigit ⊢
      omega
    have same : c.toLower = c := Char.toLower_eq_of_not_isUpper (by simp [noCapital])
    rw [Quiet, same]
    constructor <;> rintro rfl <;> cases isDigit
  · have quiet : ['.', '_', '@', '$', 'N', 'a', 'f', 'i', 'n', 'p', 's', 't', 'u', 'v', 'w', 'x', 'y',
        'z'].all (Quiet ·) := by decide
    exact of_decide_eq_true (List.all_eq_true.mp quiet c isMark)

variable (config : Config) {word : List Char} (connective : word ∈ connectives)

/-- The pieces of a text close what they open. -/
theorem closes : Relates (fun text _ => Closed text) (Over Flat) (Over Flat) Closed config config :=
  relates_closed config (fun _ => id) (fun _ => id) (fun _ => id)

/-- A keyword shows a word neither in small letters nor in capitals. -/
theorem not_shows_of_spellings {keyword : String}
    (isKeyword : keyword ∈ keywords)
    (small : word ∉ words keyword.toList)
    (capital : word ∉ words (keyword.toList.flatMap Text.upperChar)) :
    ¬Shows word (config.keyword keyword) := by
  rw [Text.shows_flat_iff (flat_keyword config isKeyword), Config.keyword]
  split
  · rw [Text.upper, String.toList_ofList]
    exact capital
  · exact small

include connective

theorem not_shows_keyword {keyword : String}
    (isKeyword : keyword ∈ ["null", "in", "count", "exists"]) :
    ¬Shows word (config.keyword keyword) := by
  have known : ∀ keyword ∈ ["null", "in", "count", "exists"], keyword ∈ keywords := by decide
  have small : ∀ keyword ∈ ["null", "in", "count", "exists"], ∀ word ∈ connectives,
      word ∉ words keyword.toList := by decide
  have capital : ∀ keyword ∈ ["null", "in", "count", "exists"], ∀ word ∈ connectives,
      word ∉ words (keyword.toList.flatMap Text.upperChar) := by decide
  exact not_shows_of_spellings config (known keyword isKeyword)
    (small keyword isKeyword word connective) (capital keyword isKeyword word connective)

theorem shows_identifier_iff {name : String} (flat : Over Flat name) :
    Shows word (config.identifier name) ↔ Shows word name := by
  have nonempty := Text.connective_ne_nil connective
  have ofIdentifier := over_identifier Text.flat_of_solid config flat
  rw [Text.shows_flat_iff ofIdentifier, Text.shows_flat_iff flat, Config.identifier]
  split
  · have delimiters : isWordPart config.dialect.delimiters.1 = false ∧
        isWordPart config.dialect.delimiters.2 = false := by
      cases config.dialect <;> exact ⟨rfl, rfl⟩
    rw [Dialect.quoteIdentifier, Text.Quoted.quoteWith, String.toList_ofList]
    have opened : word ∈ words (([config.dialect.delimiters.1] : List Char) ++
        (Text.Quoted.escape config.dialect.delimiters.2 name.toList ++
          [config.dialect.delimiters.2])) ↔ _ :=
      Text.mem_words_behind_iff (List.forall_mem_singleton.mpr delimiters.1) nonempty
    have none : word ∉ words [] := by simpa [words] using nonempty
    have escaped : word ∈ words ([] ++
        Text.Quoted.escape config.dialect.delimiters.2 name.toList) ↔
          word ∈ words ([] ++ name.toList) :=
      Text.mem_words_escape_iff delimiters.2 nonempty
    refine opened.trans ?_
    rw [Text.mem_words_append_iff delimiters.2]
    exact (or_iff_left none).trans escaped
  · rfl

theorem not_shows_numerical {text : String} (numerical : Over Text.Numerical text) :
    ¬Shows word text :=
  Text.not_shows_of_quiet connective (fun c member => Text.flat_of_numerical c (numerical c member))
    fun c member => quiet_of_numerical c (numerical c member)

theorem not_shows_row (name : RowAlias) : ¬Shows word (config.identifier name.text) := by
  have numerical : Over Text.Numerical name.text := over_rowAlias (fun _ => id) name
  rw [shows_identifier_iff config connective fun c member =>
    Text.flat_of_numerical c (numerical c member)]
  exact not_shows_numerical connective numerical

theorem shows_column_iff {ref : ColumnRef} (flat : Over Flat ref.column) :
    Shows word (ref.text config) ↔ Shows word ref.column := by
  have nonempty := Text.connective_ne_nil connective
  have gap : Text.IsGap "." := by decide
  have ofRow : Closed (config.identifier ref.table.text) := (closes config).row ref.table
  have ofColumn : Closed (config.identifier ref.column) := (closes config).table flat
  rw [ColumnRef.text, Config.column, String.append_assoc,
    Text.shows_gap_iff gap nonempty ofRow ofColumn, shows_identifier_iff config connective flat]
  exact or_iff_right (not_shows_row config connective ref.table)

theorem not_shows_literal (value : Value) : ¬Shows word (config.literal value) := by
  have sign : Text.Quiet '-' := by decide
  have flatSign : Flat '-' := by decide
  have ofNumber {text : String} (flat : Text.OverSigned Flat text)
      (quiet : Text.OverSigned Quiet text) : ¬Shows word text :=
    Text.not_shows_of_quiet connective (flat.whole flatSign) (quiet.whole sign)
  have ofQuote (content : String) : ¬Shows word (Text.quote content) := by
    obtain ⟨seen, isSeen, quotes⟩ := Text.outline_quote content
    rw [Text.shows_iff isSeen]
    refine Text.not_mem_words_of_quiet connective fun c member => ?_
    rw [quotes c member]
    decide
  cases value with
  | null => exact not_shows_keyword config connective (by simp)
  | boolean b =>
    have spelled : config.literal (.boolean b) = config.dialect.booleanText b := rfl
    have silent (dialect : Dialect) : ∀ word ∈ connectives,
        word ∉ words (dialect.booleanText b).toList := by
      cases dialect <;> cases b <;> decide
    have flat (dialect : Dialect) : (dialect.booleanText b).toList.all (Flat ·) := by
      cases dialect <;> cases b <;> decide
    rw [spelled, Text.shows_flat_iff fun c member =>
      of_decide_eq_true (List.all_eq_true.mp (flat config.dialect) c member)]
    exact silent config.dialect word connective
  | string content => exact ofQuote content
  | dateTime instant => exact ofQuote instant.compactText
  | integer n =>
    exact ofNumber (Text.signed_integer Text.flat_of_numerical n.value)
      (Text.signed_integer quiet_of_numerical n.value)
  | decimal x =>
    exact ofNumber (Text.signed_decimal Text.flat_of_numerical x)
      (Text.signed_decimal quiet_of_numerical x)
  | float x =>
    exact ofNumber (Text.signed_binary Text.flat_of_numerical _ _)
      (Text.signed_binary quiet_of_numerical _ _)
  | double x =>
    exact ofNumber (Text.signed_binary Text.flat_of_numerical _ _)
      (Text.signed_binary quiet_of_numerical _ _)

/-- A term shows a connective where a text from outside in it does. -/
theorem shows_term_iff {t : Term} (made : t.MadeOf (Over Flat) (Over Flat) Closed) :
    Shows word (t.text config) ↔ ∃ text ∈ t.loose, Shows word text := by
  have nonempty := Text.connective_ne_nil connective
  have none : ¬Shows word "" := Text.not_shows_empty nonempty
  cases composite : t.bracketed? config with
  | some pair =>
    obtain ⟨head, content⟩ := pair
    have ofContent := ((closes config).both made).inside _ composite _ composite
    have ofHead : Over Flat head := over_head Text.flat_of_solid (fun _ => id) made composite
    rw [Term.text_of_bracketed? composite,
      Text.shows_bracketed_iff nonempty (Text.closed_of_flat ofHead) ofContent]
    cases made with
    | literal | parameter | raw | column | rowOf | allColumns => cases composite
    | call named =>
      obtain ⟨rfl, -⟩ := Prod.mk.inj (Option.some.inj composite)
      simp [Term.loose]
    | rowCount | nonempty =>
      obtain ⟨rfl, -⟩ := Prod.mk.inj (Option.some.inj composite)
      simpa [Term.loose] using not_shows_keyword config connective (by simp)
    | _ =>
      obtain ⟨rfl, -⟩ := Prod.mk.inj (Option.some.inj composite)
      simpa [Term.loose] using none
  | none =>
    cases made with
    | raw => simp [Term.loose, Term.text]
    | literal value => simpa [Term.loose, Term.text] using not_shows_literal config connective value
    | parameter index =>
      simpa [Term.loose] using
        not_shows_numerical connective (over_parameter config (fun _ => id) index)
    | column named => simpa [Term.loose, Term.text] using shows_column_iff config connective named
    | rowOf table =>
      have gap : Text.IsGap ".*" := by decide
      have ofRow : Closed (config.identifier table.text) := (closes config).row table
      have split := Text.shows_gap_iff gap nonempty ofRow (closes config).empty
      rw [String.append_empty] at split
      simpa [Term.loose, Term.text, split, none] using not_shows_row config connective table
    | allColumns =>
      have quiet : Over Quiet "*" := by simp [Over]; decide
      simpa [Term.loose, Term.text] using
        Text.not_shows_of_quiet connective (by simp [Over, Flat]) quiet
    | _ => cases composite

/-- A comparison shows what its sides show. -/
theorem shows_equality_iff {left : ColumnRef} {right : String}
    (flat : Over Flat left.column)
    (ofRight : Closed right) :
    Shows word (left.text config ++ " = " ++ right) ↔ Shows word left.column ∨ Shows word right := by
  have nonempty := Text.connective_ne_nil connective
  have gap : Text.IsGap " = " := by decide
  rw [String.append_assoc, Text.shows_gap_iff gap nonempty ((closes config).column flat) ofRight,
    shows_column_iff config connective flat]

theorem shows_restriction_iff {kept : Restriction} (flat : Over Flat kept.selector.column) :
    Shows word (kept.text config) ↔
      ∃ text ∈ (Condition.restriction kept).loose, Shows word text := by
  have nonempty := Text.connective_ne_nil connective
  have none : ¬Shows word "" := Text.not_shows_empty nonempty
  have blank : Text.IsGap " " := by decide
  rw [Restriction.text, Condition.loose]
  split
  · have brackets : truthText false = "" ++ ("(" ++ "1=0" ++ ")") := rfl
    have content : Closed "1=0" := (closes config).mark (by decide)
    rw [brackets, Text.shows_bracketed_iff nonempty (closes config).empty content]
    simpa using none
  · have opening : " (" = " " ++ "(" := rfl
    have spelled : kept.selector.text config ++ " " ++ config.keyword "in" ++ " (" ++
        Text.commaList (kept.values.map config.literal) ++ ")" =
        kept.selector.text config ++ (" " ++ (config.keyword "in" ++ (" " ++
          ("" ++ ("(" ++ Text.commaList (kept.values.map config.literal) ++ ")"))))) := by
      simp only [opening, String.append_assoc, String.empty_append]
    have ofColumn : Closed (kept.selector.text config) := (closes config).column flat
    have ofKeyword : Closed (config.keyword "in") := (closes config).keyword (by decide)
    have listed : Closed (Text.commaList (kept.values.map config.literal)) :=
      (closes config).commaList ((closes config).literals kept.values)
    have ofBlank : Closed " " := (closes config).blank
    have behind := (closes config).empty.append listed.brackets
    have silent := not_shows_keyword config connective (List.mem_cons_of_mem _ List.mem_cons_self)
    rw [spelled,
      Text.shows_gap_iff blank nonempty ofColumn (ofKeyword.append (ofBlank.append behind)),
      Text.shows_gap_iff blank nonempty ofKeyword behind,
      Text.shows_bracketed_iff nonempty (closes config).empty listed,
      shows_column_iff config connective flat]
    simp [silent, none]

/-- A conjunct shows a connective where a text from outside in it does. -/
theorem shows_condition_iff {condition : Condition}
    (made : condition.MadeOf (Over Flat) (Over Flat) Closed) :
    Shows word (condition.text config) ↔ ∃ text ∈ condition.loose, Shows word text := by
  cases condition with
  | restriction kept =>
    exact shows_restriction_iff config connective (made.columns kept.selector List.mem_cons_self)
  | sameColumn left right =>
    have flatLeft : Over Flat left.column := made.columns left List.mem_cons_self
    have flatRight : Over Flat right.column :=
      made.columns right (List.mem_cons_of_mem _ List.mem_cons_self)
    have compared := shows_equality_iff config connective flatLeft ((closes config).column flatRight)
    rw [shows_column_iff config connective flatRight] at compared
    simpa [Condition.loose, Condition.text] using compared
  | hasValue left right =>
    have flatLeft : Over Flat left.column := made.columns left List.mem_cons_self
    have ofRight := made.terms right List.mem_cons_self
    have compared := shows_equality_iff config connective flatLeft ((closes config).term ofRight)
    rw [shows_term_iff config connective ofRight] at compared
    simpa [Condition.loose, Condition.text] using compared
  | term t => exact shows_term_iff config connective (made.terms t List.mem_cons_self)

omit connective in
theorem flat_spaced {keyword : String} (isKeyword : keyword ∈ keywords) :
    Over Flat (config.spaced keyword) := by
  have blank : Over Flat " " := by simp [Over, Flat]
  exact (blank.append (flat_keyword config isKeyword)).append blank

omit connective in
/-- Texts that are joined with `and` show an `or` where one of them does. -/
theorem shows_conjunction_iff {texts : List String} (each : ∀ text ∈ texts, Closed text) :
    Shows ['o', 'r'] ((config.spaced "and").intercalate texts) ↔
      ∃ text ∈ texts, Shows ['o', 'r'] text := by
  have nonempty : ['o', 'r'] ≠ [] := List.cons_ne_nil _ _
  have gap : Text.IsGap " " := by decide
  have ofKeyword : Closed (config.keyword "and") := (closes config).keyword (by decide)
  have silent : ¬Shows ['o', 'r'] (config.keyword "and") :=
    not_shows_of_spellings config (by decide) (by decide) (by decide)
  refine Text.shows_intercalate_iff nonempty (Text.closed_of_flat (flat_spaced config (by decide)))
    (fun first second ofFirst ofSecond => ?_) each
  have behind : Closed (config.keyword "and" ++ (" " ++ second)) :=
    ofKeyword.append ((closes config).blank.append ofSecond)
  simp only [Config.spaced, String.append_assoc]
  rw [Text.shows_gap_iff gap nonempty ofFirst behind,
    Text.shows_gap_iff gap nonempty ofKeyword ofSecond]
  exact or_congr_right (or_iff_right silent)

omit connective in
/-- The names of an expression that was read are flat, and its raw texts close what they open. -/
theorem madeOf_of_readable {e : Expr} (readable : e.Readable) : e.MadeOf (Over Flat) Closed := by
  intro part has
  have partReadable := Expr.everywhere_readable readable part has
  refine ⟨fun name isOwn => flat_of_isName (Expr.isName_of_ownNames partReadable isOwn), ?_⟩
  cases part with
  | raw text => exact List.forall_mem_singleton.mpr (Grammar.RawReadable.exists_outline partReadable)
  | _ => exact List.forall_mem_nil _

end Sql

open Sql

/-- At each select level of a query or condition that was read, raw text included, the where clause is
a list of conjuncts with `and` between them, and has the restriction of each class of its from list
among these. Its conjuncts show `and` or `or` only where they hold text from outside without
brackets: raw text, or the name of a column or function. Where such a text shows `or`, and nowhere
else, the where clause falls apart at it. -/
theorem Schema.conjuncts_of_toSelect
    (schema : Schema)
    (config : Config)
    (q : Query)
    (statement : Select)
    (read : (∃ text, parseQuery text = .ok q) ∨ ∃ text className condition,
      parseCondition text = .ok condition ∧ q = .selectAll className (some condition))
    (storedNames : ∀ name ∈ schema.storedNames, Text.Over Text.Flat name)
    (ran : schema.toSelect q = .ok statement)
    (select : Select)
    (within : statement.Within select) :
    (∃ level : Level schema q, level.Gives select ∧
        Restricts schema level.scope.entries select.conditions) ∧
      (∃ outlines,
        List.Forall₂ (fun condition seen => Text.outline (condition.text config) = some seen)
          select.conditions outlines ∧
        Text.outline (select.conjunction config) =
          some ((config.spaced "and").toList.intercalate outlines)) ∧
      (∀ condition ∈ select.conditions, ∀ word ∈ Text.connectives,
        Text.Shows word (condition.text config) ↔
          ∃ text ∈ condition.loose, Text.Shows word text) ∧
      (Text.Shows ['o', 'r'] (select.conjunction config) ↔
        ∃ condition ∈ select.conditions, ∃ text ∈ condition.loose, Text.Shows ['o', 'r'] text) := by
  obtain ⟨ofParts, ofLabels⟩ := readable_of_read read
  have madeOf : (Expr.query q).MadeOf (Text.Over Text.Flat) Text.Closed :=
    Expr.everywhere_iff.mpr ⟨⟨fun name isOwn => flat_of_isName (ofLabels name isOwn),
      List.forall_mem_nil _⟩, fun e member => madeOf_of_readable (ofParts e member)⟩
  have made : select.MadeOf (Text.Over Text.Flat) (Text.Over Text.Flat) Text.Closed :=
    (madeOf_of_toSelect storedNames madeOf ran).within within
  have closed (condition : Condition) (member : condition ∈ select.conditions) :
      Text.Closed (condition.text config) :=
    (closes config).condition (made.condition member).columns
      fun t inCondition => (closes config).term ((made.condition member).terms t inCondition)
  have shown (condition : Condition) (member : condition ∈ select.conditions)
      (word : List Char) (connective : word ∈ Text.connectives) :
      Text.Shows word (condition.text config) ↔ ∃ text ∈ condition.loose, Text.Shows word text :=
    shows_condition_iff config connective (made.condition member)
  obtain ⟨level, gives⟩ := Level.exists_gives ran within
  refine ⟨⟨level, gives, level.restricts_of_gives gives⟩, ?_, shown, ?_⟩
  · have each : List.Forall₂ (fun condition seen => Text.outline (condition.text config) = some seen)
        select.conditions
        (select.conditions.map fun condition => (Text.outline (condition.text config)).getD []) := by
      refine List.forall₂_map_right_iff.mpr (List.forall₂_same.mpr fun condition member => ?_)
      obtain ⟨seen, isSeen⟩ := closed condition member
      rw [isSeen, Option.getD_some]
    refine ⟨_, each, Text.outline_intercalate (flat_spaced config (by decide)) ?_⟩
    exact List.forall₂_map_left_iff.mpr each
  · rw [Select.conjunction, shows_conjunction_iff config fun text member => ?_]
    · simp only [List.mem_map, exists_exists_and_eq_and]
      exact exists_congr fun condition => and_congr_right fun member =>
        shown condition member _ (by decide)
    · obtain ⟨condition, isCondition, rfl⟩ := List.mem_map.mp member
      exact closed condition isCondition

/-- Persons, of whom some are employees. -/
def personnelSchema : Schema :=
  ⟨[("Person",
      (ClassDef.stored "Person" "person").withPrimaryKey "Id" "id"
        |>.withField (.plain "Name" "name" .string)
        |>.withField (.plain "Kind" "kind" .string)
        |>.withSelectorField "Kind"
        |>.withSelectorValue (.string "P")),
    ("Employee", (ClassDef.derived "Employee" "Person").withSelectorValue (.string "E"))]⟩

/-- `select Name from Employee where RAWQUERY(1 = 1 or 2 = 2)` -/
def eitherAsRaw : Query :=
  ⟨false, [⟨.path ⟨[], "Name"⟩, none⟩], [⟨"Employee", none⟩], some (.raw "1 = 1 or 2 = 2"), [],
    none, []⟩

/-- The raw text stands without brackets behind the restriction to employees, and its `or` admits
other persons. -/
theorem Schema.conjuncts_eitherAsRaw :
    parseQuery "select Name from Employee where RAWQUERY(1 = 1 or 2 = 2)" = .ok eitherAsRaw ∧
    ∃ statement, personnelSchema.toSelect eitherAsRaw = .ok statement ∧
      statement.conditions =
        [.restriction ⟨⟨⟨0, 0⟩, "kind"⟩, [.string "E"]⟩, .term (.raw "1 = 1 or 2 = 2")] ∧
      Text.Shows ['o', 'r'] (statement.conjunction .standard) := by
  have read : parseQuery "select Name from Employee where RAWQUERY(1 = 1 or 2 = 2)" =
      .ok eitherAsRaw := by cbv
  have ran : personnelSchema.toSelect eitherAsRaw =
      .ok ⟨false, [⟨.column ⟨⟨0, 0⟩, "name"⟩, none⟩], [⟨"person", ⟨0, 0⟩, []⟩],
        [.restriction ⟨⟨⟨0, 0⟩, "kind"⟩, [.string "E"]⟩, .term (.raw "1 = 1 or 2 = 2")],
        [], none, []⟩ := by cbv
  have stored : ∀ name ∈ personnelSchema.storedNames, name.toList.all (Text.Flat ·) := by decide
  obtain ⟨-, -, -, fallsApart⟩ := Schema.conjuncts_of_toSelect personnelSchema .standard eitherAsRaw _
    (.inl ⟨_, read⟩)
    (fun name isStored c member =>
      of_decide_eq_true (List.all_eq_true.mp (stored name isStored) c member))
    ran _ .refl
  have outline : Text.outline "1 = 1 or 2 = 2" = some "1 = 1 or 2 = 2".toList := by cbv
  have shown : Text.Shows ['o', 'r'] "1 = 1 or 2 = 2" := (Text.shows_iff outline).mpr (by decide)
  refine ⟨read, _, ran, rfl, fallsApart.mpr ⟨.term (.raw "1 = 1 or 2 = 2"), ?_, _, ?_, shown⟩⟩
  · exact List.mem_cons_of_mem _ List.mem_cons_self
  · exact List.mem_cons_self

end ObjectQuery
