import ObjectQuery.Proofs.Sql.Declared

/-!
Contract: which conditions are translated but not analysed.

The statement of a condition has a from item for the class of the objects. The analysis starts from
a frame for the class without a from item, so a chain of names that leads to the objects by the name
of their class is taken for a field there.

Owns: `Place.QualifiedBy`, and the exact condition for the analysis to succeed.
-/

namespace ObjectQuery

/-- A chain of names starts by the name of a class at the outermost level: it is no label and no
field of the innermost one, and stands for no from item in between. -/
def QualifiedBy (schema : Schema) (className : String) (frames : List Frame) (names : List String) :
    Prop :=
  ∃ innermost rest, frames.head? = some innermost ∧ names = className :: rest ∧
    innermost.labelled? className = none ∧ schema.field? innermost.root className = none ∧
      frames.dropLast.findSome? (·.named? className) = none

namespace Frame

theorem labelled?_ofClass (className name : String) : (ofClass className).labelled? name = none := by
  simp [labelled?, ofClass]

theorem named?_ofClass (className name : String) :
    (ofClass className).named? name = if className = name then some ⟨className, none⟩ else none := by
  rw [named?, labelled?_ofClass]
  by_cases same : className = name <;> simp [ofClass, same]

end Frame

variable {schema : Schema} {className : String} {inner : List Frame} {names : List String}

/-- A chain of names starts at the innermost level, or at an item of an inner level or the last
one. -/
theorem locate_append (last : Frame) (first : String) (rest : List String) :
    schema.locate (inner ++ [last]) (first :: rest) =
      match (inner.head?.getD last).labelled? first with
      | some item => .ok (item.className, rest)
      | none =>
        if (schema.field? (inner.head?.getD last).root first).isSome then
          .ok ((inner.head?.getD last).root, first :: rest)
        else
          match (inner.findSome? (·.named? first)).or (last.named? first) with
          | some item => .ok (item.className, rest)
          | none => .ok ((inner.head?.getD last).root, first :: rest) := by
  cases inner with
  | nil =>
    simp only [Schema.locate, List.nil_append, List.findSome?_singleton]
    rfl
  | cons frame others =>
    have all : (frame :: (others ++ [last])).findSome? (·.named? first) =
        ((frame :: others).findSome? (·.named? first)).or (last.named? first) := by
      rw [← List.cons_append, List.findSome?_append]
      simp
    rw [List.cons_append, Schema.locate, all]
    rfl

section

variable (inner className)

/-- Whether the class is a from item changes neither the labels of the innermost level nor the class
of its bare names. -/
theorem innermost_bare (name : String) :
    (inner.head?.getD ⟨className, []⟩).labelled? name =
        (inner.head?.getD (.ofClass className)).labelled? name ∧
      (inner.head?.getD ⟨className, []⟩).root = (inner.head?.getD (.ofClass className)).root := by
  cases inner with
  | nil => exact ⟨(Frame.labelled?_ofClass className name).symm, rfl⟩
  | cons _ _ => exact ⟨rfl, rfl⟩

theorem head?_append_ofClass :
    (inner ++ [Frame.ofClass className]).head? = some (inner.head?.getD (.ofClass className)) := by
  cases inner <;> rfl

end

/-- Without the from item a chain starts where it does with it, unless it starts at the item by the
name of the class. -/
theorem locate_bare
    (unqualified : ¬QualifiedBy schema className (inner ++ [.ofClass className]) names) :
    schema.locate (inner ++ [⟨className, []⟩]) names =
      schema.locate (inner ++ [.ofClass className]) names := by
  cases names with
  | nil => cases inner <;> rfl
  | cons first rest =>
    obtain ⟨sameLabels, sameRoot⟩ := innermost_bare className inner first
    rw [locate_append, locate_append, sameLabels, sameRoot, Frame.named?_ofClass]
    by_cases isClass : className = first
    · subst isClass
      cases label : (inner.head?.getD (.ofClass className)).labelled? className with
      | some item => rfl
      | none =>
        cases field : schema.field? (inner.head?.getD (.ofClass className)).root className with
        | some _ => rfl
        | none =>
          cases between : inner.findSome? (·.named? className) with
          | some item => rfl
          | none =>
            refine absurd ⟨_, rest, head?_append_ofClass className inner, rfl, label, field, ?_⟩
              unqualified
            rw [List.dropLast_concat]
            exact between
    · rw [if_neg isClass]
      rfl

/-- Without the from item the name of the class is looked for among the fields. -/
theorem not_isOk_reach_bare
    (qualified : QualifiedBy schema className (inner ++ [.ofClass className]) names) :
    ¬(schema.reach (inner ++ [⟨className, []⟩]) names).isOk := by
  obtain ⟨innermost, rest, isInnermost, rfl, label, field, between⟩ := qualified
  obtain rfl := Option.some.inj ((head?_append_ofClass className inner).symm.trans isInnermost)
  obtain ⟨sameLabels, sameRoot⟩ := innermost_bare className inner className
  rw [List.dropLast_concat] at between
  rw [Schema.reach, locate_append, sameLabels, sameRoot, label, field, between]
  -- no class has a field of the name, if there is the class
  show ¬(schema.classOf _ (className :: rest)).isOk
  rw [Schema.classOf, Schema.resolveReferences]
  cases required : schema.require (inner.head?.getD (.ofClass className)).root with
  | error error => simp
  | ok c => simp [Schema.resolveFrom, Schema.requireField, required, field]

section

variable {frames frames' : List Frame} {e : Expr}

theorem resolves_congr (same : schema.reach frames e.chain = schema.reach frames' e.chain) :
    (⟨frames, e⟩ : Place).Resolves schema ↔ (⟨frames', e⟩ : Place).Resolves schema := by
  cases e <;> simp only [Place.Resolves, Schema.fieldAt, Schema.collectionAt] <;>
    simp only [Expr.chain] at same <;> rw [same]

theorem levelFrame?_congr (same : schema.reach frames e.chain = schema.reach frames' e.chain) :
    e.levelFrame? schema frames = e.levelFrame? schema frames' := by
  cases e <;> simp only [Expr.levelFrame?, Schema.collectionAt]
  simp only [Expr.chain] at same
  rw [same]

/-- Where a place resolves its chain of names leads to a class. -/
theorem isOk_reach_of_resolves
    (some_name : e.chain ≠ [])
    (resolves : (⟨frames, e⟩ : Place).Resolves schema) : (schema.reach frames e.chain).isOk := by
  have of_bind {α : Type} {next : String → Except Error α}
      (both : (schema.reach frames e.chain >>= next).isOk) : (schema.reach frames e.chain).isOk := by
    cases reached : schema.reach frames e.chain with
    | error error => simp [reached] at both
    | ok _ => rfl
  cases e with
  | path _ | count _ _ | contains _ _ _ => exact of_bind resolves
  | asterisk _ | classTag _ => exact resolves
  | _ => exact absurd rfl some_name

end

/-- A place at which the objects are reached by the name of their class. -/
def Place.QualifiedBy (schema : Schema) (className : String) (place : Place) : Prop :=
  ObjectQuery.QualifiedBy schema className place.frames place.node.chain

/-- Where all places resolve with the from item, all of them resolve without it exactly when none is
reached by the name of the class. -/
theorem forall_resolves_bare_iff (inner : List Frame) (e : Expr)
    (resolves : ∀ place, Place.Has schema (fun _ => True) ⟨inner ++ [.ofClass className], e⟩ place →
      place.Resolves schema) :
    (∀ place, Place.Has schema (fun _ => True) ⟨inner ++ [⟨className, []⟩], e⟩ place →
        place.Resolves schema) ↔
      ∀ place, Place.Has schema (fun _ => True) ⟨inner ++ [.ofClass className], e⟩ place →
        ¬place.QualifiedBy schema className := by
  -- the levels that are gone through stand in front, and the outermost frame stays the last
  induction e using Expr.parts_induction generalizing inner with
  | step e inductionHypothesis =>
    rw [Place.forall_has_iff, true_imp_iff, Place.forall_mem_parts] at resolves
    obtain ⟨here, inOperands, inClauses⟩ := resolves
    rw [Place.forall_has_iff, Place.forall_has_iff, true_imp_iff, true_imp_iff,
      Place.forall_mem_parts, Place.forall_mem_parts]
    by_cases qualified : QualifiedBy schema className (inner ++ [.ofClass className]) e.chain
    · have some_name : e.chain ≠ [] := by
        obtain ⟨_, _, -, isChain, -⟩ := qualified
        exact isChain ▸ List.cons_ne_nil _ _
      refine iff_of_false (fun both => ?_) fun both => both.1 qualified
      exact not_isOk_reach_bare qualified (isOk_reach_of_resolves some_name both.1)
    · have same : schema.reach (inner ++ [⟨className, []⟩]) e.chain =
          schema.reach (inner ++ [.ofClass className]) e.chain := by
        rw [Schema.reach, Schema.reach, locate_bare qualified]
      rw [resolves_congr same, levelFrame?_congr same]
      refine and_congr (iff_of_true here qualified) (and_congr ?_ ?_)
      · refine forall₂_congr fun part member => ?_
        exact inductionHypothesis part (List.mem_append_left _ member) inner (inOperands part member)
      · refine forall₂_congr fun frame opened => forall₂_congr fun part member => ?_
        exact inductionHypothesis part (List.mem_append_right _ member) (frame :: inner)
          (inClauses frame opened part member)

namespace Sql

/-- A condition that is translated and has no membership test without candidates is analysed exactly
when it reaches the objects nowhere by the name of their class. -/
theorem isOk_involvedClasses_iff_of_toSqlWhere
    (schema : Schema)
    (config : Config)
    (className : String)
    (e : Expr)
    (text : String)
    (candidates : e.Everywhere (·.isEmptyTest = false))
    (translated : schema.toSqlWhere config className e = .ok text) :
    (schema.involvedClasses className e).isOk ↔
      ∀ place, Place.Has schema (fun _ => True) ⟨[.ofClass className], e⟩ place →
        ¬place.QualifiedBy schema className := by
  have analysed : (schema.involvedClasses className e).isOk ↔
      (e.classesRead schema [⟨className, []⟩]).isOk := isOk_map _ _
  rw [analysed, Expr.isOk_classesRead_iff]
  refine forall_resolves_bare_iff [] e fun place has => ?_
  have filter : (⟨[.ofClass className], e⟩ : Place)
      ∈ (⟨[], .query (.selectAll className (some e))⟩ : Place).parts schema :=
    Place.mem_parts.mpr (.inr ⟨_, rfl, .tail _ (.head _), rfl⟩)
  have declared := (declared_of_toSql schema config _).1 text translated
  exact declared place (.head ⟨rfl, filter⟩ (Place.Has.entering has candidates))

/-- `Members.Contains(PrimaryGroup.Name = Group.Name)` reaches the group by the name of its class, so
it is translated but not analysed. -/
theorem not_isOk_involvedClasses_sameNamedMember :
    ∃ text, clubSchema.toSqlWhere .standard "Group" sameNamedMember = .ok text ∧
      ¬(clubSchema.involvedClasses "Group" sameNamedMember).isOk := by
  obtain ⟨statement, ran⟩ : ∃ statement,
      clubSchema.toSelect (.selectAll "Group" (some sameNamedMember)) = .ok statement :=
    exists_eq_ok (by cbv)
  have translated : clubSchema.toSqlWhere .standard "Group" sameNamedMember =
      .ok (statement.text .standard) := bind_eq_ok.mpr ⟨statement, ran, rfl⟩
  have candidates : sameNamedMember.Everywhere (·.isEmptyTest = false) :=
    Expr.everywhere_of_part rfl Expr.parts_contains (Expr.everywhere_of_pair rfl rfl
      (Expr.everywhere_of_leaf rfl rfl) (Expr.everywhere_of_leaf rfl rfl))
  have comparison : (⟨[.ofClass "Contact", .ofClass "Group"],
      .relational .equal (.path ⟨["PrimaryGroup"], "Name"⟩) (.path ⟨["Group"], "Name"⟩)⟩ : Place)
      ∈ (⟨[.ofClass "Group"], sameNamedMember⟩ : Place).parts clubSchema :=
    Place.mem_parts.mpr (.inr ⟨.ofClass "Contact", by cbv, .head _, rfl⟩)
  have name : (⟨[.ofClass "Contact", .ofClass "Group"], .path ⟨["Group"], "Name"⟩⟩ : Place)
      ∈ (⟨[.ofClass "Contact", .ofClass "Group"],
        .relational .equal (.path ⟨["PrimaryGroup"], "Name"⟩) (.path ⟨["Group"], "Name"⟩)⟩ : Place).parts
          clubSchema :=
    Place.mem_parts.mpr (.inl ⟨.tail _ (.head _), rfl⟩)
  refine ⟨_, translated, fun analysed => ?_⟩
  have unqualified := (isOk_involvedClasses_iff_of_toSqlWhere clubSchema .standard "Group"
    sameNamedMember _ candidates translated).mp analysed
  refine unqualified _ (.head ⟨trivial, comparison⟩ (.single ⟨trivial, name⟩)) ?_
  exact ⟨.ofClass "Contact", [], rfl, rfl, rfl, by cbv, by cbv⟩

end Sql

end ObjectQuery
