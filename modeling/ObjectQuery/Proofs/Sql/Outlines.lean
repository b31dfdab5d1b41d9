import ObjectQuery.Proofs.Sql.Characters
import ObjectQuery.Proofs.Sql.Congruence
import ObjectQuery.Proofs.Sql.Shadowing
import ObjectQuery.Proofs.Text.Outline

/-!
Contract: each expression of a statement stands for itself in its text.

A composite term stands in brackets of its own but for a name in front, and all other terms are
literals, names or numbers.

Owns:
- `Closed` and `SelfContained`, texts that close all they open, and those without a blank outside;
- that statements are closed when raw texts are, and terms without raw text self-contained.

Does not own: how conjuncts are joined.
-/

namespace ObjectQuery

namespace Text

/-- A text closes all brackets and literals that it opens, and no others. -/
def Closed (text : String) : Prop :=
  ∃ seen, outline text = some seen

/-- A closed text without a blank outside brackets and literals. -/
def SelfContained (text : String) : Prop :=
  ∃ seen, outline text = some seen ∧ ' ' ∉ seen

/-- A flat character other than a blank. -/
def Compact (c : Char) : Prop :=
  Flat c ∧ c ≠ ' '

instance : DecidablePred Compact :=
  fun c => inferInstanceAs (Decidable (Flat c ∧ c ≠ ' '))

theorem compact_of_solid (c : Char) (solid : Solid c) : Compact c := by
  refine ⟨⟨?_, ?_, ?_⟩, ?_⟩ <;> rintro rfl <;> revert solid <;> simp [Solid]

theorem flat_of_solid (c : Char) (solid : Solid c) : Flat c :=
  (compact_of_solid c solid).1

theorem compact_of_numerical (c : Char) (numerical : Numerical c) : Compact c :=
  compact_of_solid c (solid_of_numerical c numerical)

theorem flat_of_numerical (c : Char) (numerical : Numerical c) : Flat c :=
  (compact_of_numerical c numerical).1

variable {first second text : String}

theorem Closed.append (ofFirst : Closed first) (ofSecond : Closed second) :
    Closed (first ++ second) := by
  obtain ⟨seen, isSeen⟩ := ofFirst
  obtain ⟨seen', isSeen'⟩ := ofSecond
  exact ⟨_, outline_append isSeen isSeen'⟩

theorem Closed.brackets (closed : Closed text) : Closed ("(" ++ text ++ ")") := by
  obtain ⟨seen, isSeen⟩ := closed
  exact ⟨_, outline_brackets (Option.isSome_of_mem isSeen)⟩

theorem closed_of_flat (flat : Over Flat text) : Closed text :=
  ⟨_, outline_flat flat⟩

theorem selfContained_of_compact (compact : Over Compact text) : SelfContained text :=
  ⟨_, outline_flat fun c member => (compact c member).1, fun member => (compact _ member).2 rfl⟩

theorem selfContained_quote (content : String) : SelfContained (quote content) := by
  obtain ⟨seen, isSeen, quotes⟩ := outline_quote content
  exact ⟨seen, isSeen, fun member => absurd (quotes _ member) (by decide)⟩

theorem SelfContained.closed (selfContained : SelfContained text) : Closed text := by
  obtain ⟨seen, isSeen, -⟩ := selfContained
  exact ⟨seen, isSeen⟩

end Text

namespace Sql

open Text (Over Flat Compact Closed SelfContained)

variable (config : Config)

theorem selfContained_literal (value : Value) : SelfContained (config.literal value) := by
  have sign : Compact '-' := by decide
  have ofNumber {text : String} (signed : Text.OverSigned Compact text) : SelfContained text :=
    Text.selfContained_of_compact (signed.whole sign)
  cases value with
  | null =>
    exact Text.selfContained_of_compact (over_keyword Text.compact_of_solid config (by simp))
  | boolean b =>
    refine Text.selfContained_of_compact ?_
    have compact (dialect : Dialect) : (dialect.booleanText b).toList.all (Compact ·) := by
      cases dialect <;> cases b <;> decide
    exact fun c member => of_decide_eq_true (List.all_eq_true.mp (compact config.dialect) c member)
  | string content => exact Text.selfContained_quote content
  | dateTime instant => exact Text.selfContained_quote instant.compactText
  | integer n => exact ofNumber (Text.signed_integer Text.compact_of_numerical n.value)
  | decimal x => exact ofNumber (Text.signed_decimal Text.compact_of_numerical x)
  | float x => exact ofNumber (Text.signed_binary Text.compact_of_numerical _ _)
  | double x => exact ofNumber (Text.signed_binary Text.compact_of_numerical _ _)

/-- A keyword is one or several words, or an operator. -/
theorem flat_keyword {word : String} (isKeyword : word ∈ keywords) :
    Over Flat (config.keyword word) := by
  have small : ∀ word ∈ keywords, word.toList.all (Flat ·) := by decide
  have capital : ∀ word ∈ keywords, (word.toList.flatMap Text.upperChar).all (Flat ·) := by decide
  intro c member
  rw [Config.keyword] at member
  split at member
  · rw [Text.upper, String.toList_ofList] at member
    exact of_decide_eq_true (List.all_eq_true.mp (capital word isKeyword) c member)
  · exact of_decide_eq_true (List.all_eq_true.mp (small word isKeyword) c member)

/-- Texts of flat names and closed raw texts are closed. -/
theorem relates_closed {valid own raw : String → Prop}
    (flat : ∀ name, valid name → Over Flat name)
    (flatOwn : ∀ name, own name → Over Flat name)
    (closed : ∀ text, raw text → Closed text) :
    Relates (fun text _ => Closed text) valid own raw config config where
  append := Text.Closed.append
  brackets := Text.Closed.brackets
  mark := by
    have small : ∀ mark ∈ marks, mark.toList.all (Flat ·) := by decide
    exact fun {mark} isMark => Text.closed_of_flat fun c member =>
      of_decide_eq_true (List.all_eq_true.mp (small mark isMark) c member)
  keyword isKeyword := Text.closed_of_flat (flat_keyword config isKeyword)
  literal value := (selfContained_literal config value).closed
  parameter index := Text.closed_of_flat (over_parameter config Text.flat_of_numerical index)
  table named :=
    Text.closed_of_flat (over_identifier Text.flat_of_solid config (flat _ named))
  label named :=
    Text.closed_of_flat (over_identifier Text.flat_of_solid config (flatOwn _ named))
  row name := Text.closed_of_flat
    (over_rowIdentifier Text.flat_of_solid config name)
  column named := Text.closed_of_flat (over_column Text.flat_of_solid config (flat _ named))
  function named := Text.closed_of_flat (flatOwn _ named)
  raw taken := closed _ taken

variable {config} {t : Term} {valid own raw : String → Prop}

/-- What stands in front of the brackets of a composite term is a name or a keyword. -/
theorem over_head {kind : Char → Prop} {head content : String}
    (solid : ∀ c, Text.Solid c → kind c)
    (names : ∀ name, own name → Over kind name)
    (made : t.MadeOf valid own raw)
    (composite : t.bracketed? config = some (head, content)) : Over kind head := by
  have none : Over kind "" := fun c member => nomatch member
  cases made with
  | literal | parameter | raw | column | rowOf | allColumns => cases composite
  | call named =>
    obtain ⟨rfl, -⟩ := Prod.mk.inj (Option.some.inj composite)
    exact names _ named
  | rowCount | nonempty =>
    obtain ⟨rfl, -⟩ := Prod.mk.inj (Option.some.inj composite)
    exact over_keyword solid config (by simp)
  | _ =>
    obtain ⟨rfl, -⟩ := Prod.mk.inj (Option.some.inj composite)
    exact none

/-- Of a composite term the name in front and its brackets are seen. -/
theorem outline_composite {head content : String}
    (flat : ∀ name, valid name → Over Flat name)
    (flatOwn : ∀ name, own name → Over Flat name)
    (closed : ∀ text, raw text → Closed text)
    (made : t.MadeOf valid own raw)
    (composite : t.bracketed? config = some (head, content)) :
    Text.outline (t.text config) = some (head.toList ++ ['(', ')']) := by
  obtain ⟨seen, isSeen⟩ := ((relates_closed config flat flatOwn closed).both made).inside
    _ composite _ composite
  rw [Term.text_of_bracketed? composite]
  exact Text.outline_append
    (Text.outline_flat (over_head Text.flat_of_solid flatOwn made composite))
    (Text.outline_brackets (Option.isSome_of_mem isSeen))

/-- A term other than raw text is self-contained when no name has a blank. -/
theorem selfContained_of_madeOf
    (compact : ∀ name, valid name → Over Compact name)
    (closed : ∀ text, raw text → Closed text)
    (made : t.MadeOf valid valid raw)
    (noRaw : ∀ text, t ≠ .raw text) : SelfContained (t.text config) := by
  cases composite : t.bracketed? config with
  | some pair =>
    obtain ⟨head, content⟩ := pair
    have ofHead : Over Compact head := over_head Text.compact_of_solid compact made composite
    have flat : ∀ name, valid name → Over Flat name :=
      fun name isValid c member => (compact name isValid c member).1
    refine ⟨_, outline_composite flat flat closed made composite, ?_⟩
    simpa using fun member => (ofHead _ member).2 rfl
  | none =>
    cases made with
    | raw => exact absurd rfl (noRaw _)
    | literal value => exact selfContained_literal config value
    | parameter index =>
      exact Text.selfContained_of_compact (over_parameter config Text.compact_of_numerical index)
    | column ofColumn =>
      exact Text.selfContained_of_compact
        (over_column Text.compact_of_solid config (compact _ ofColumn))
    | rowOf table =>
      have star : Over Compact ".*" := by simp [Over, Compact, Flat]
      exact Text.selfContained_of_compact
        ((over_rowIdentifier Text.compact_of_solid config table).append star)
    | allColumns => exact Text.selfContained_of_compact (by simp [Term.text, Over, Compact, Flat])
    | _ => cases composite

end Sql

open Sql Text

/-- Without raw text, and with names that have neither blanks nor brackets nor quotes, the text of
each expression that the translation of a query comes to, in each role, closes what it opens and has
no blank outside brackets and literals; and the whole text closes what it opens. -/
theorem Schema.selfContained_of_toSql (schema : Schema) (config : Config) (q : Query)
    (noRaw : (Expr.query q).Everywhere (·.isRaw = false))
    (ownNames : (Expr.query q).Everywhere fun part => ∀ name ∈ part.ownNames, Over Compact name)
    (storedNames : ∀ name ∈ schema.storedNames, Over Compact name) :
    (∀ met role part scopes t next, q.Meets schema (.term met part) scopes →
        (part.toTerm schema role).run scopes = .ok (t, next) → SelfContained (t.text config)) ∧
      ∀ sql, schema.toSql config q = .ok sql → Closed sql := by
  have madeOf : (Expr.query q).MadeOf (Over Compact) fun _ => False := by
    intro part has
    refine ⟨ownNames part has, ?_⟩
    rw [Expr.taken_eq_nil (noRaw part has)]
    exact List.forall_mem_nil _
  have noTexts : ∀ text : String, False → Closed text := fun _ => False.elim
  constructor
  · intro met role part scopes t next meets translated
    have made : t.MadeOf (Over Compact) (Over Compact) fun _ => False :=
      madeOf_of_meets storedNames madeOf meets translated
    apply selfContained_of_madeOf (fun _ => id) noTexts made
    rintro text rfl
    cases made with
    | raw taken => exact taken
  · intro sql translated
    obtain ⟨statement, isStatement, finished⟩ := bind_eq_ok.mp translated
    obtain rfl := Except.ok.inj finished
    have made := madeOf_of_toSelect storedNames madeOf isStatement
    have flat : ∀ name, Over Compact name → Over Flat name :=
      fun name compact c member => (compact c member).1
    exact (relates_closed config flat flat noTexts).select made

/-- `select Name from Group where Name = ') or ('` -/
def bracketsAsName : Query :=
  ⟨false, [⟨.path ⟨[], "Name"⟩, none⟩], [⟨"Group", none⟩],
    some (.relational .equal (.path ⟨[], "Name"⟩) (.literal (.string ") or ("))), [], none, []⟩

/-- Brackets in a literal open and close nothing. -/
theorem Schema.selfContained_bracketsAsName :
    (∃ t next, ((Expr.query bracketsAsName).toTerm clubSchema .value).run [] = .ok (t, next) ∧
        SelfContained (t.text .standard)) ∧
      ∃ sql, clubSchema.toSql .standard bracketsAsName = .ok sql ∧ Closed sql := by
  have plain : (Expr.query bracketsAsName).Everywhere fun part =>
      part.isRaw = false ∧ part.ownNames = [] := by
    have leaf {e : Expr} (noParts : e.parts = []) (noRaw : e.isRaw = false)
        (noNames : e.ownNames = []) :
        e.Everywhere fun part => part.isRaw = false ∧ part.ownNames = [] :=
      Expr.everywhere_of_leaf ⟨noRaw, noNames⟩ noParts
    refine Expr.everywhere_of_pair ⟨rfl, rfl⟩ rfl (leaf rfl rfl rfl) ?_
    exact Expr.everywhere_of_pair ⟨rfl, rfl⟩ rfl (leaf rfl rfl rfl) (leaf rfl rfl rfl)
  have stored : ∀ name ∈ clubSchema.storedNames, name.toList.all (Compact ·) := by decide
  obtain ⟨ofParts, ofWhole⟩ := Schema.selfContained_of_toSql clubSchema .standard bracketsAsName
    (fun part has => (plain part has).1)
    (fun part has => by simp [(plain part has).2])
    (fun name isStored c member =>
      of_decide_eq_true (List.all_eq_true.mp (stored name isStored) c member))
  obtain ⟨⟨t, next⟩, translated⟩ :
      ∃ result, ((Expr.query bracketsAsName).toTerm clubSchema .value).run [] = .ok result :=
    exists_eq_ok (by cbv)
  obtain ⟨sql, isSql⟩ : ∃ sql, clubSchema.toSql .standard bracketsAsName = .ok sql :=
    exists_eq_ok (by cbv)
  exact ⟨⟨t, next, translated, ofParts _ _ _ _ t next .here translated⟩, sql, isSql,
    ofWhole sql isSql⟩

end ObjectQuery
