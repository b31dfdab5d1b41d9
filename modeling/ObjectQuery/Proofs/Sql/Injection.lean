import ObjectQuery.Proofs.Sql.Contents
import ObjectQuery.Proofs.Sql.Shadowing

/-!
Contract: a string literal of a query stays a string literal of its statement.

Owns: what replacing the contents of string literals does to a statement.

Does not own: raw text, and names with quotes.
-/

namespace ObjectQuery.Sql

open Text (Slot cutLiterals)

/-- Whatever strings the literals of a query without raw text hold, the outcome is the same failure,
or it is a text with the same characters outside its literals, and each of these literals is a fixed
one or reads as the string of a node. The query itself is one of those that are compared. -/
theorem cutLiterals_of_toSql_refill (schema : Schema) (config : Config) (q : Query)
    (noRaw : (Expr.query q).Everywhere (·.isRaw = false))
    (ownNames : (Expr.query q).Everywhere fun part => ∀ name ∈ part.ownNames, '\'' ∉ name.toList)
    (storedNames : ∀ name ∈ schema.storedNames, '\'' ∉ name.toList) :
    (∃ own, q.refill own = q) ∧
      ((∃ error, ∀ strings, schema.toSql config (q.refill strings) = .error error) ∨
        ∃ outside, ∃ slots : List Slot, ∀ strings, ∃ text, schema.toSql config (q.refill strings) = .ok text ∧
          cutLiterals text.toList = some ⟨outside, slots.map (·.content strings)⟩) := by
  have isMild {name : String} (unquoted : '\'' ∉ name.toList) : IsMild False name :=
    fun c member => ⟨fun isQuote => unquoted (isQuote ▸ member), False.elim⟩
  refine ⟨q.exists_refill_eq, ?_⟩
  have alike : Alike (fun strings => schema.toSql config (q.refill strings)) _ :=
    alike_toSql (fun name stored => isMild (storedNames name stored)) fun part has =>
      ⟨noRaw part has, fun name isOwn => isMild (ownNames part has name isOwn)⟩
  refine alike.imp_right ?_
  rintro ⟨texts, succeeds, template, spells, good⟩
  refine ⟨template.map (·.mark), template.filterMap (·.slot?), fun strings =>
    ⟨texts strings, succeeds strings, ?_⟩⟩
  rw [spells, Text.Template.cutLiterals_fill strings good.sound]

/-- `select Name from Group where Name in ('Tom', '')` -/
def namedGroups : Query :=
  ⟨false, [⟨.path ⟨[], "Name"⟩, none⟩], [⟨"Group", none⟩],
    some (.oneOf (.path ⟨[], "Name"⟩) [.literal (.string "Tom"), .literal (.string "")]), [], none,
    []⟩

/-- No two names can be chosen that end the list of names early. -/
theorem cutLiterals_namedGroups :
    ∃ outside, ∃ slots : List Slot, ∀ strings, ∃ text,
      clubSchema.toSql .standard (namedGroups.refill strings) = .ok text ∧
        cutLiterals text.toList = some ⟨outside, slots.map (·.content strings)⟩ := by
  have clean : (Expr.query namedGroups).Everywhere fun part =>
      part.isRaw = false ∧ part.ownNames = [] := by
    refine Expr.everywhere_of_pair ⟨rfl, rfl⟩ rfl (Expr.everywhere_of_leaf ⟨rfl, rfl⟩ rfl) ?_
    refine Expr.everywhere_iff.mpr ⟨⟨rfl, rfl⟩, ?_⟩
    have leaves : ∀ part ∈ (Expr.oneOf (.path ⟨[], "Name"⟩) [.literal (.string "Tom"),
        .literal (.string "")]).parts, part.parts = [] ∧ part.isRaw = false ∧ part.ownNames = [] := by
      simp [Expr.parts, Expr.operands, Expr.clauses, Expr.isRaw, Expr.ownNames]
    exact fun part member => Expr.everywhere_of_leaf (leaves part member).2 (leaves part member).1
  have stored : ∀ name ∈ clubSchema.storedNames, '\'' ∉ name.toList := by decide
  have outcome := (cutLiterals_of_toSql_refill clubSchema .standard namedGroups
    (fun part has => (clean part has).1)
    (fun part has => by simp [(clean part has).2]) stored).2
  refine outcome.resolve_left ?_
  rintro ⟨error, fails⟩
  have succeeds : (clubSchema.toSql .standard (namedGroups.refill fun _ => "")).isOk = true := by
    cbv
  rw [fails] at succeeds
  cases succeeds

end ObjectQuery.Sql
