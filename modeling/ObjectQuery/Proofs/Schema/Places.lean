import ObjectQuery.Schema.Involvement
import ObjectQuery.Proofs.Expr.Parts
import ObjectQuery.Proofs.Success

/-!
Contract: expressions at their places, where each name is declared or is not.

Owns:
- `Place`, an expression with the frames that its names are looked up in, and the places within it;
- `Place.Resolves`, that what the node itself names is declared;
- that the analysis of an expression succeeds exactly when every place within it resolves.

Does not own: which classes the analysis finds.
-/

namespace ObjectQuery

/-- An expression and the levels around it, the innermost first. -/
structure Place where
  frames : List Frame
  node : Expr

/-- The frame of a level whose only from item is a class, without a label. -/
def Frame.ofClass (className : String) : Frame :=
  ⟨className, [⟨className, none⟩]⟩

namespace Schema

/-- The class that a chain of names leads to. -/
def reach (schema : Schema) (frames : List Frame) (names : List String) : Except Error String := do
  let (start, rest) ← schema.locate frames names
  schema.classOf start rest

/-- The field that a path ends in. -/
def fieldAt (schema : Schema) (frames : List Frame) (path : Path) : Except Error FieldDef := do
  schema.requireField (← schema.reach frames path.owner) path.name

/-- The collection behind a chain of names. -/
def collectionAt
    (schema : Schema)
    (frames : List Frame)
    (owner : List String)
    (collection : String) : Except Error CollectionDef := do
  schema.requireCollection (← schema.reach frames owner) collection

end Schema

namespace Expr

/-- The chain of names that a node follows to a class. -/
def chain : Expr → List String
  | .path p => p.owner
  | .asterisk owner | .classTag owner | .count owner _ | .contains owner _ _ => owner
  | _ => []

/-- The frame of the level that a node opens for its clauses, if the class of its bare names is
known. -/
def levelFrame? (schema : Schema) (frames : List Frame) : Expr → Option Frame
  | .query q | .nonempty q => q.sources.head?.map fun first => ⟨first.className, q.sources⟩
  | .contains owner collection _ =>
    (schema.collectionAt frames owner collection).toOption.map fun found => .ofClass found.element
  | _ => none

end Expr

namespace Place

/-- The places directly within a place: the operands of its node at the same level, and the clauses
of its node at the level that it opens. -/
def parts (schema : Schema) (place : Place) : List Place :=
  place.node.operands.map (Place.mk place.frames)
    ++ (place.node.levelFrame? schema place.frames).toList.flatMap fun frame =>
      place.node.clauses.map (Place.mk (frame :: place.frames))

/-- A place lies within another at some depth, or is the other, and the nodes around it may all be
entered. -/
def Has (schema : Schema) (enter : Expr → Prop) : Place → Place → Prop :=
  Relation.ReflTransGen fun whole part => enter whole.node ∧ part ∈ whole.parts schema

/-- What the node at a place names is declared: the field of a path, the class of a mark, the
collection of a count or test, and the classes of the from items of a query. -/
def Resolves (schema : Schema) (place : Place) : Prop :=
  match place.node with
  | .path p => (schema.fieldAt place.frames p).isOk
  | .asterisk owner | .classTag owner => (schema.reach place.frames owner).isOk
  | .count owner collection | .contains owner collection _ =>
    (schema.collectionAt place.frames owner collection).isOk
  | .query q | .nonempty q => ∀ item ∈ q.sources, (schema.require item.className).isOk
  | _ => True

variable {schema : Schema} {enter : Expr → Prop}

theorem mem_parts {place part : Place} :
    part ∈ place.parts schema ↔
      (part.node ∈ place.node.operands ∧ part.frames = place.frames) ∨
        ∃ frame, place.node.levelFrame? schema place.frames = some frame ∧
          part.node ∈ place.node.clauses ∧ part.frames = frame :: place.frames := by
  obtain ⟨frames, node⟩ := part
  simp only [parts, List.mem_append, List.mem_map, List.mem_flatMap, Option.mem_toList,
    Place.mk.injEq]
  constructor
  · rintro (⟨_, member, rfl, rfl⟩ | ⟨frame, opened, _, member, rfl, rfl⟩)
    · exact .inl ⟨member, rfl⟩
    · exact .inr ⟨frame, opened, member, rfl⟩
  · rintro (⟨member, rfl⟩ | ⟨frame, opened, member, rfl⟩)
    · exact .inl ⟨node, member, rfl, rfl⟩
    · exact .inr ⟨frame, opened, node, member, rfl, rfl⟩

theorem forall_mem_parts {place : Place} {holds : Place → Prop} :
    (∀ part ∈ place.parts schema, holds part) ↔
      (∀ e ∈ place.node.operands, holds ⟨place.frames, e⟩) ∧
        ∀ frame ∈ place.node.levelFrame? schema place.frames, ∀ e ∈ place.node.clauses,
          holds ⟨frame :: place.frames, e⟩ := by
  simp only [parts, List.forall_mem_append, List.forall_mem_map, List.forall_mem_flatMap,
    Option.mem_toList, Option.mem_def]

/-- The node of a place within a place is a part of its node. -/
theorem node_mem_parts {place part : Place} (member : part ∈ place.parts schema) :
    part.node ∈ place.node.parts := by
  rcases mem_parts.mp member with ⟨isOperand, -⟩ | ⟨_, -, isClause, -⟩
  · exact List.mem_append_left _ isOperand
  · exact List.mem_append_right _ isClause

theorem Has.node {whole place : Place} (has : whole.Has schema enter place) :
    whole.node.Has enter place.node := by
  induction has with
  | refl => exact .refl
  | tail _ step inductionHypothesis =>
    exact inductionHypothesis.tail ⟨step.1, node_mem_parts step.2⟩

/-- Where all nodes may be entered, the restriction to these is none. -/
theorem Has.entering {whole place : Place}
    (has : whole.Has schema (fun _ => True) place)
    (all : ∀ part, whole.node.Has (fun _ => True) part → enter part) :
    whole.Has schema enter place := by
  induction has with
  | refl => exact .refl
  | tail before step inductionHypothesis =>
    exact inductionHypothesis.tail ⟨all _ (Has.node before), step.2⟩

/-- What holds of all places within a place holds of itself and of those within its parts. -/
theorem forall_has_iff {whole : Place} {holds : Place → Prop} :
    (∀ place, whole.Has schema enter place → holds place) ↔
      holds whole ∧ (enter whole.node →
        ∀ part ∈ whole.parts schema, ∀ place, part.Has schema enter place → holds place) :=
  @forall_within_iff Place (parts schema) (enter ·.node) holds whole

end Place

/-! ## Outcomes that are values -/

section

variable {α β : Type}

@[simp]
theorem isOk_ok (value : α) : (Except.ok value : Except Error α).isOk = true :=
  rfl

@[simp]
theorem isOk_error (error : Error) : (Except.error error : Except Error α).isOk = false :=
  rfl

theorem isOk_map (outcome : Except Error α) (change : α → β) :
    (outcome.map change).isOk ↔ outcome.isOk := by
  cases outcome <;> exact Iff.rfl

/-- Both of a pair have to be values. -/
theorem isOk_pair {first second : Except Error (List String)} :
    (do pure ((← first) ++ (← second)) : Except Error (List String)).isOk ↔
      first.isOk ∧ second.isOk := by
  cases first with
  | error error => simp
  | ok found => cases second <;> simp

end

/-! ## The analysis goes through all places -/

namespace Schema

variable {schema : Schema} {frames : List Frame}

/-- The classes on a way end in the class that is reached. -/
theorem map_classesOnWay (names : List String) :
    (schema.classesOnWay frames names).map Prod.fst = schema.reach frames names := by
  rw [classesOnWay, reach]
  cases schema.locate frames names with
  | error error => rfl
  | ok start =>
    obtain ⟨start, rest⟩ := start
    simp only [ok_bind, classOf, resolveReferences]
    cases schema.require start with
    | error error => rfl
    | ok c =>
      simp only [ok_bind]
      cases schema.resolveFrom start [] rest <;> rfl

theorem map_classesOfCollection (owner : List String) (collection : String) :
    (schema.classesOfCollection frames owner collection).map Prod.fst =
      (schema.collectionAt frames owner collection).map (·.element) := by
  rw [classesOfCollection, collectionAt, ← map_classesOnWay]
  cases schema.classesOnWay frames owner with
  | error error => rfl
  | ok found =>
    obtain ⟨last, onWay⟩ := found
    simp only [ok_bind, Except.map]
    cases schema.requireCollection last collection <;> rfl

theorem isOk_classesOfSources {items : List FromItem} :
    (schema.classesOfSources items).isOk ↔
      ∀ item ∈ items, (schema.require item.className).isOk := by
  induction items with
  | nil => exact ⟨fun _ => List.forall_mem_nil _, fun _ => rfl⟩
  | cons item rest inductionHypothesis =>
    rw [classesOfSources, List.forall_mem_cons, ← inductionHypothesis]
    cases schema.require item.className with
    | error error => simp
    | ok c => cases schema.classesOfSources rest <;> simp

end Schema

section

variable {schema : Schema} {frames : List Frame}

namespace Expr

theorem isOk_classesReadByEach (es : List Expr) :
    (Expr.classesReadByEach schema frames es).isOk ↔
      ∀ e ∈ es, (e.classesRead schema frames).isOk := by
  induction es with
  | nil => exact ⟨fun _ => List.forall_mem_nil _, fun _ => rfl⟩
  | cons e rest inductionHypothesis =>
    rw [Expr.classesReadByEach, isOk_pair, inductionHypothesis, List.forall_mem_cons]

end Expr

/-- The analysis of a query looks for the classes of its from items and goes through its clauses. -/
theorem Query.isOk_classesRead {q : Query} :
    (q.classesRead schema frames).isOk ↔
      (∀ item ∈ q.sources, (schema.require item.className).isOk) ∧
        ∀ first ∈ q.sources.head?, ∀ e ∈ q.clauses,
          (e.classesRead schema (⟨first.className, q.sources⟩ :: frames)).isOk := by
  obtain ⟨distinct, select, sources, condition, groupBy, having, orderBy⟩ := q
  rw [Query.classesRead, ← Schema.isOk_classesOfSources]
  cases schema.classesOfSources sources with
  | error error => simp
  | ok named =>
    cases sources with
    | nil => simp
    | cons first rest =>
      simp only [Query.clauses, List.head?_cons, Option.mem_some_iff, forall_eq',
        List.forall_mem_append, ← Expr.isOk_classesReadByEach, SelectItem.classesRead_eq,
        Expr.classesReadByOption_eq, OrderItem.classesRead_eq]
      generalize Expr.classesReadByEach schema _ (select.map _) = selected
      generalize Expr.classesReadByEach schema _ condition.toList = filtered
      generalize Expr.classesReadByEach schema _ groupBy = grouped
      generalize Expr.classesReadByEach schema _ having.toList = kept
      generalize Expr.classesReadByEach schema _ (orderBy.map _) = ordered
      cases selected <;> cases filtered <;> cases grouped <;> cases kept <;> cases ordered <;>
        simp

/-- The analysis of an expression looks up what its node names and goes through its parts. -/
theorem Place.isOk_classesRead (place : Place) :
    (place.node.classesRead schema place.frames).isOk ↔
      place.Resolves schema ∧
        ∀ part ∈ place.parts schema, (part.node.classesRead schema part.frames).isOk := by
  obtain ⟨frames, e⟩ := place
  rw [forall_mem_parts]
  cases e with
  | literal _ | parameter _ _ | raw _ | boolean _ =>
    simp [Expr.classesRead, Resolves, Expr.operands, Expr.levelFrame?]
  | path p =>
    simp only [Expr.classesRead, Resolves, Expr.operands, Expr.levelFrame?, Schema.fieldAt,
      ← Schema.map_classesOnWay]
    cases schema.classesOnWay frames p.owner with
    | error error => simp [Except.map]
    | ok found =>
      cases required : schema.requireField found.1 p.name <;>
        simp [required, Except.map]
  | asterisk owner | classTag owner =>
    simp only [Expr.classesRead, Resolves, Expr.operands, Expr.levelFrame?,
      ← Schema.map_classesOnWay]
    cases schema.classesOnWay frames owner <;> simp [Except.map]
  | count owner collection =>
    simp only [Expr.classesRead, Resolves, Expr.operands, Expr.levelFrame?]
    rw [← isOk_map (schema.collectionAt frames owner collection) (·.element),
      ← Schema.map_classesOfCollection]
    cases schema.classesOfCollection frames owner collection <;>
      simp [Except.map]
  | binary _ left right | and left right | or left right | relational _ left right =>
    rw [Expr.classesRead, isOk_pair]
    simp [Resolves, Expr.operands, Expr.levelFrame?]
  | negate operand | not operand | nullTest operand _ =>
    rw [Expr.classesRead]
    simp [Resolves, Expr.operands, Expr.levelFrame?]
  | call _ arguments =>
    rw [Expr.classesRead, Expr.isOk_classesReadByEach]
    simp [Resolves, Expr.operands, Expr.levelFrame?]
  | oneOf operand candidates =>
    rw [Expr.classesRead, isOk_pair, Expr.isOk_classesReadByEach]
    simp [Resolves, Expr.operands, Expr.levelFrame?]
  | query q | nonempty q =>
    rw [Expr.classesRead, Query.isOk_classesRead]
    simp [Resolves, Expr.operands, Expr.levelFrame?, Expr.clauses]
  | contains owner collection element =>
    have same := @Schema.map_classesOfCollection schema frames owner collection
    simp only [Expr.classesRead, Resolves, Expr.operands, Expr.levelFrame?, Expr.clauses]
    cases analysed : schema.classesOfCollection frames owner collection with
    | error error =>
      cases found : schema.collectionAt frames owner collection with
      | error error' => simp
      | ok _ => simp [analysed, found, Except.map] at same
    | ok read =>
      cases found : schema.collectionAt frames owner collection with
      | error error' => simp [analysed, found, Except.map] at same
      | ok _ =>
        obtain ⟨elementClass, classes⟩ := read
        obtain rfl : elementClass = _ := by simpa [analysed, found, Except.map] using same
        have read_eq (outcome : Except Error (List String)) :
            (do .ok (classes ++ (← outcome)) : Except Error (List String)).isOk ↔ outcome.isOk :=
          isOk_map outcome (classes ++ ·)
        cases kind : element.isBoolean <;> simp [read_eq, Except.toOption, Frame.ofClass]

/-- The analysis of an expression succeeds exactly when every place within it resolves. -/
theorem Expr.isOk_classesRead_iff (e : Expr) :
    (e.classesRead schema frames).isOk ↔
      ∀ place, Place.Has schema (fun _ => True) ⟨frames, e⟩ place → place.Resolves schema := by
  induction e using Expr.parts_induction generalizing frames with
  | step e inductionHypothesis =>
    rw [Place.forall_has_iff, Place.isOk_classesRead ⟨frames, e⟩, true_imp_iff]
    refine and_congr_right fun _ => forall₂_congr fun part member => ?_
    exact inductionHypothesis part.node (Place.node_mem_parts member)

end

end ObjectQuery
