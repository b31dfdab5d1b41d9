import ObjectQuery.Proofs.Expr.Folded
import ObjectQuery.Proofs.Expr.RoundTrip
import ObjectQuery.Proofs.Sql.Contents
import ObjectQuery.Proofs.Sql.Shadowing

/-!
Contract: no comment is opened in a statement.

Numbers that are read have no sign, and a number that simplification makes is negated only if its
negation does not fit. Two signs come to touch where such a number is written.

Owns: when the text of a query that was read, or of its simplified form, opens a comment.

Does not own: raw text, and schemas with other names.
-/

namespace ObjectQuery

/-! ## Trees that were read -/

theorem Query.isName_of_label {q : Query} {name : String}
    (readable : q.Readable)
    (member : name ∈ q.select.filterMap (·.label)) : IsName name.toList := by
  obtain ⟨distinct, select, sources, condition, groupBy, having, orderBy⟩ := q
  obtain ⟨item, isItem, isLabel⟩ := List.mem_filterMap.mp member
  exact (SelectItem.readableEach_iff.mp readable.1.2 item isItem).2 name isLabel

namespace Expr

variable {e : Expr}

theorem isName_of_ownNames {name : String} (readable : e.Readable) (member : name ∈ e.ownNames) :
    IsName name.toList := by
  cases e with
  | call function _ => exact List.mem_singleton.mp member ▸ readable.1.1
  | query q | nonempty q => exact Query.isName_of_label readable member
  | _ => cases member

end Expr

theorem isMild_of_isName {strict : Prop} {name : String} (isName : IsName name.toList) :
    IsMild strict name := by
  obtain ⟨first, others, split, start, inside⟩ := isName
  have ofPart {c : Char} (isPart : isWordPart c = true) : Text.Mild strict c := by
    refine ⟨?_, fun _ => ⟨?_, ?_, ?_⟩⟩ <;> rintro rfl <;> exact absurd isPart (by decide)
  intro c member
  rw [split] at member
  rcases List.mem_cons.mp member with rfl | isOther
  · refine ⟨?_, fun _ => ⟨?_, ?_, ?_⟩⟩ <;> rintro rfl <;> exact absurd start (by decide)
  · exact ofPart (inside c isOther)

/-! ## Signs -/

/-- A literal that is read has no sign. -/
theorem Value.Readable.head?_ne {v : Value} (readable : v.Readable) (isNumber : v.isNumeric = true) :
    v.text.toList.head? ≠ some '-' := by
  cases v with
  | integer n =>
    obtain ⟨size, isSize⟩ := Int.eq_ofNat_of_zero_le readable.1
    have mild : IsMild True (toString size) := IsMild.toString_nat size
    rw [Value.text, isSize]
    exact mild.head?_ne trivial
  | decimal x =>
    have mild : IsMild True x.text := isMild_decimal readable.1
    exact mild.head?_ne trivial
  | float _ | double _ => exact readable.elim
  | _ => cases isNumber

namespace Expr

theorem not_isSigned_of_readable {e : Expr} (readable : e.Readable) : ¬e.IsSigned := by
  cases e with
  | literal v => exact fun signed => Value.Readable.head?_ne readable signed.1 signed.2
  | _ => exact id

/-- A tree that was read negates no number with a sign. -/
theorem signFree_of_readable {e : Expr} (readable : e.Readable) : e.SignFree := by
  intro part has
  have partReadable := (everywhere_readable readable).of_has has
  cases part with
  | negate operand => exact not_isSigned_of_readable partReadable
  | _ => exact id

/-- In a simplified tree the numbers that are negated are the least ones. -/
theorem Settled.doublesSign_iff {named : String → Prop} {e : Expr} (settled : e.Settled named) :
    e.DoublesSign ↔ ∃ n : Integer, e = .negate (.literal (.integer n)) ∧
      n.value = -n.width.bound := by
  constructor
  · intro doubles
    cases e with
    | negate operand =>
      cases operand with
      | literal v =>
        have failed := settled.negation v rfl doubles.1
        cases v with
        | integer n =>
          refine ⟨n, rfl, ?_⟩
          have range := n.inRange
          have outside : ¬n.width.Holds (-n.value) := by
            intro holds
            simp [Value.negate, Integer.make?, holds, Except.isOk, Except.toBool] at failed
          unfold IntWidth.Holds at range outside
          omega
        | decimal _ | float _ | double _ => cases failed
        | _ => cases doubles.1
      | _ => exact doubles.elim
    | _ => exact doubles.elim
  · rintro ⟨n, rfl, least⟩
    have negative : n.value < 0 := by
      have positive : 0 < n.width.bound := by cases n.width <;> decide
      omega
    refine ⟨rfl, ?_⟩
    obtain ⟨size, isSize⟩ := Int.eq_negSucc_of_lt_zero negative
    rw [Value.text, isSize]
    show ("-" ++ toString (size + 1)).toList.head? = some '-'
    rw [String.toList_append]
    rfl

/-- A simplified tree negates a number with a sign exactly where it negates the least number of a
width. -/
theorem signFree_iff_of_settled {named : String → Prop} {e : Expr}
    (settled : e.Everywhere (Settled named)) :
    e.SignFree ↔ ∀ n : Integer, e.Has (·.isEmptyTest = false) (.negate (.literal (.integer n))) →
      n.value ≠ -n.width.bound := by
  constructor
  · exact fun free n has least =>
      free _ has ((settled.of_has has).doublesSign_iff.mpr ⟨n, rfl, least⟩)
  · intro noLeast part has doubles
    obtain ⟨n, rfl, least⟩ := (settled.of_has has).doublesSign_iff.mp doubles
    exact noLeast n has least

end Expr

namespace Sql

open Text (cutLiterals CommentFree)

/-- The text of a query with mild names is cut into its literals and the rest, which opens a comment
unless no number with a sign is negated. -/
theorem exists_cut_of_toSql {schema : Schema} {config : Config} {q : Query} {sql : String}
    (names : ∀ name ∈ schema.storedNames, IsMild True name)
    (clean : (Expr.query q).Clean True)
    (translated : schema.toSql config q = .ok sql) :
    ∃ cut, cutLiterals sql.toList = some cut ∧
      (CommentFree cut.outside ↔ (Expr.query q).SignFree) := by
  obtain ⟨own, same⟩ := q.exists_refill_eq
  rw [← same] at translated
  have alike : Alike (fun strings => schema.toSql config (q.refill strings)) _ :=
    alike_toSql names clean
  rcases alike with ⟨error, fails⟩ | ⟨texts, succeeds, template, spells, good⟩
  · cases (fails own).symm.trans translated
  · obtain rfl := Except.ok.inj ((succeeds own).symm.trans translated)
    rw [spells]
    exact ⟨_, Text.Template.cutLiterals_fill own good.sound, good.comments trivial⟩

theorem clean_of_readable {e : Expr} (readable : e.Readable)
    (noRaw : e.Everywhere (·.isRaw = false)) : e.Clean True := by
  intro part has
  have partReadable := Expr.everywhere_readable readable part has
  exact ⟨noRaw part has, fun name isOwn =>
    isMild_of_isName (Expr.isName_of_ownNames partReadable isOwn)⟩

theorem readable_of_parseCondition {text : String} {condition : Expr}
    (read : parseCondition text = .ok condition) : condition.Readable := by
  obtain ⟨tokens, -, read⟩ := bind_eq_ok.mp read
  obtain ⟨e, parsed, read⟩ := bind_eq_ok.mp read
  split at read
  · obtain rfl := Except.ok.inj read
    exact readable_of_parseExpression parsed
  · cases read

/-- The parts of a query or condition that was read are readable, and its labels are names. -/
theorem readable_of_read {q : Query}
    (read : (∃ text, parseQuery text = .ok q) ∨ ∃ text className condition,
      parseCondition text = .ok condition ∧ q = .selectAll className (some condition)) :
    (∀ e ∈ q.clauses, e.Readable) ∧ ∀ name ∈ (Expr.query q).ownNames, IsName name.toList := by
  rcases read with ⟨text, read⟩ | ⟨text, className, condition, read, rfl⟩
  · have readable := readable_of_parseQuery read
    exact ⟨fun e member => Query.readable_of_mem_clauses readable member,
      fun name member => Query.isName_of_label readable member⟩
  · exact ⟨List.forall_mem_cons.mpr ⟨.inl rfl,
      List.forall_mem_singleton.mpr (readable_of_parseCondition read)⟩, List.forall_mem_nil _⟩

/-- The names of a query or condition that was read are mild. -/
theorem clean_of_read {q : Query}
    (read : (∃ text, parseQuery text = .ok q) ∨ ∃ text className condition,
      parseCondition text = .ok condition ∧ q = .selectAll className (some condition))
    (noRaw : (Expr.query q).Everywhere (·.isRaw = false)) :
    (∀ e ∈ q.clauses, e.Readable) ∧ (Expr.query q).Clean True := by
  obtain ⟨ofParts, ofLabels⟩ := readable_of_read read
  refine ⟨ofParts, Expr.everywhere_iff.mpr
    ⟨⟨rfl, fun name isOwn => isMild_of_isName (ofLabels name isOwn)⟩, fun e member => ?_⟩⟩
  exact clean_of_readable (ofParts e member) ((Expr.everywhere_iff.mp noRaw).2 e member)

/-- Outside its literals the statement of a query or condition that was read opens no comment. That
of its simplified form opens one exactly where the least number of a width is negated. -/
theorem commentFree_of_toSql (schema : Schema) (config : Config) (q : Query)
    (read : (∃ text, parseQuery text = .ok q) ∨ ∃ text className condition,
      parseCondition text = .ok condition ∧ q = .selectAll className (some condition))
    (noRaw : (Expr.query q).Everywhere (·.isRaw = false))
    (names : ∀ name ∈ schema.storedNames, IsName name.toList) :
    (∀ sql, schema.toSql config q = .ok sql →
      ∃ cut, cutLiterals sql.toList = some cut ∧ CommentFree cut.outside) ∧
    ∀ sql, schema.toSql config q.simplify = .ok sql →
      ∃ cut, cutLiterals sql.toList = some cut ∧ (CommentFree cut.outside ↔
        ∀ n : Integer, (Expr.query q.simplify).Has (·.isEmptyTest = false)
          (.negate (.literal (.integer n))) → n.value ≠ -n.width.bound) := by
  obtain ⟨ofParts, clean⟩ := clean_of_read read noRaw
  have ofSchema : ∀ name ∈ schema.storedNames, IsMild True name :=
    fun name stored => isMild_of_isName (names name stored)
  constructor
  · intro sql translated
    obtain ⟨cut, isCut, free⟩ := exists_cut_of_toSql ofSchema clean translated
    exact ⟨cut, isCut, free.mpr ((Expr.signFree_iff_parts id rfl).mpr fun e member =>
      Expr.signFree_of_readable (ofParts e member))⟩
  · intro sql translated
    have settled : (Expr.query q.simplify).Everywhere (Expr.Settled (IsMild True)) :=
      Expr.everywhere_simplify clean
    obtain ⟨cut, isCut, free⟩ := exists_cut_of_toSql ofSchema
      (fun part has => ⟨(settled part has).not_raw, (settled part has).names⟩) translated
    exact ⟨cut, isCut, free.trans (Expr.signFree_iff_of_settled settled)⟩

/-- `select Id from Group` where the field is equal to a negation. -/
def idIsNegated (operand : Expr) : Query :=
  ⟨false, [⟨.path ⟨[], "Id"⟩, none⟩], [⟨"Group", none⟩],
    some (.relational .equal (.path ⟨[], "Id"⟩) (.negate operand)), [], none, []⟩

theorem holds_one : IntWidth.w32.Holds 1 := by
  decide

/-- `-2147483647 - 1` -/
def leastAsDifference : Expr :=
  .binary .subtract (.negate (.literal (.integer ⟨.w32, 2147483647, by decide⟩)))
    (.literal (.integer ⟨.w32, 1, holds_one⟩))

/-- The least number of 32 bits. -/
def leastNumber : Integer :=
  ⟨.w32, -2147483648, by decide⟩

theorem readable_idIsNegated {operand : Expr} (readable : operand.Readable) :
    (idIsNegated operand).Readable := by
  have idLower : "Id".toLower = "id" := Text.toLower_eq (by decide)
  have ofId : (Expr.path ⟨[], "Id"⟩).Readable :=
    ⟨by decide, by simp [IsKeyword, idLower, pathWords], List.forall_mem_nil _⟩
  refine ⟨⟨List.cons_ne_nil _ _, ofId, nofun, trivial⟩, ⟨List.cons_ne_nil _ _, ?_⟩,
    ⟨ofId, readable⟩, trivial, trivial, trivial⟩
  exact List.forall_mem_singleton.mpr ⟨by decide, nofun⟩

theorem parseQuery_leastAsDifference :
    parseQuery "select Id from Group where (Id = (-((-2147483647) - 1)))" =
      .ok (idIsNegated leastAsDifference) := by
  have readable : leastAsDifference.Readable :=
    ⟨⟨by decide, .inl rfl⟩, by decide, .inl rfl⟩
  have spelled : (idIsNegated leastAsDifference).text =
      "select Id from Group where (Id = (-((-2147483647) - 1)))" := rfl
  have idLower : "Id".toLower = "id" := Text.toLower_eq (by decide)
  rw [← spelled]
  refine (Query.readsBack_of_readable _ _ (readable_idIsNegated readable) ?_).parseQuery
  have leading : (idIsNegated leastAsDifference).leadingNames = ["Id", "Id"] := rfl
  simp [leading, IsLeading, idLower, openingWords]

/-- The difference folds to the least number, and the two minus signs open a comment. -/
theorem not_commentFree_leastAsDifference :
    parseQuery "select Id from Group where (Id = (-((-2147483647) - 1)))" =
      .ok (idIsNegated leastAsDifference) ∧
    ∃ sql cut, clubSchema.toSql .standard (idIsNegated leastAsDifference).simplify = .ok sql ∧
      cutLiterals sql.toList = some cut ∧ ¬CommentFree cut.outside := by
  have read := parseQuery_leastAsDifference
  have simplified : (idIsNegated leastAsDifference).simplify =
      idIsNegated (.literal (.integer leastNumber)) := rfl
  obtain ⟨statement, ran⟩ : ∃ statement,
      clubSchema.toSelect (idIsNegated (.literal (.integer leastNumber))) = .ok statement :=
    exists_eq_ok (by cbv)
  have translated : clubSchema.toSql .standard (idIsNegated (.literal (.integer leastNumber))) =
      .ok (statement.text .standard) := bind_eq_ok.mpr ⟨statement, ran, rfl⟩
  have leaf {e : Expr} (here : e.isRaw = false) (noParts : e.parts = []) :
      e.Everywhere (·.isRaw = false) := Expr.everywhere_of_leaf here noParts
  have difference : leastAsDifference.Everywhere (·.isRaw = false) :=
    Expr.everywhere_of_pair rfl rfl (Expr.everywhere_of_part rfl rfl (leaf rfl rfl)) (leaf rfl rfl)
  have noRaw : (Expr.query (idIsNegated leastAsDifference)).Everywhere (·.isRaw = false) :=
    Expr.everywhere_of_pair rfl rfl (leaf rfl rfl) (Expr.everywhere_of_pair rfl rfl (leaf rfl rfl)
      (Expr.everywhere_of_part rfl rfl difference))
  have outcome := (commentFree_of_toSql clubSchema .standard (idIsNegated leastAsDifference)
    (.inl ⟨_, read⟩) noRaw (by decide)).2
  rw [simplified] at outcome ⊢
  obtain ⟨cut, isCut, free⟩ := outcome _ translated
  refine ⟨read, _, cut, translated, isCut, fun isFree => free.mp isFree leastNumber ?_ rfl⟩
  have isCondition : Expr.relational .equal (.path ⟨[], "Id"⟩)
      (.negate (.literal (.integer leastNumber))) ∈
        (Expr.query (idIsNegated (.literal (.integer leastNumber)))).parts := .tail _ (.head _)
  have isOperand : Expr.negate (.literal (.integer leastNumber)) ∈
      (Expr.relational .equal (.path ⟨[], "Id"⟩)
        (.negate (.literal (.integer leastNumber)))).parts := .tail _ (.head _)
  exact .head ⟨rfl, isCondition⟩ (.single ⟨rfl, isOperand⟩)

end Sql

end ObjectQuery
