import Mathlib
import ObjectQuery.Expr.Evaluation
import ObjectQuery.Schema.Involvement
import ObjectQuery.Proofs.Expr.Parts
import ObjectQuery.Proofs.Schema.Resolution
import ObjectQuery.Proofs.Store.Agreement

/-!
Contract: evaluation reads only objects of the involved classes.

The analysis of an expression and its evaluation walk the same chains of properties, the one from
class to class and the other from object to object. Objects that conform to the schema keep the two
walks together: an object at hand is of the class at hand, or the handle belongs to no object.
Two stores that agree on the involved classes therefore give one outcome, failures included.

Owns:
- `Schema.StoredByName` and the frames that evaluation can come to;
- what the analysis of a pair, of a list and of a collection finds;
- the walk along a chain of references in two stores;
- `Expr.SameOutcome` and the noninterference theorem.

Does not own: nested queries, which evaluation does not enter.
-/

namespace ObjectQuery

/-- Every class is stored under its own name. -/
def Schema.StoredByName (schema : Schema) : Prop :=
  ∀ key c, schema.find? key = some c → c.name = key

/-- No from item of the level has a label. -/
def Frame.Unlabelled (frame : Frame) : Prop :=
  ∀ item ∈ frame.entries, item.label = none

namespace Frame

theorem labelled?_eq_none
    {frame : Frame}
    (unlabelled : frame.Unlabelled)
    (name : String) :
    frame.labelled? name = none := by
  refine List.find?_eq_none.mpr fun item member => ?_
  simp [unlabelled item member]

end Frame

namespace Schema

variable {schema : Schema}

/-- Without labels a chain starts at the root class, or its first name is no field of that class. -/
theorem locate_cases
    {frame : Frame}
    {outer : List Frame}
    {names rest : List String}
    {start : String}
    (unlabelled : frame.Unlabelled)
    (located : schema.locate (frame :: outer) names = .ok (start, rest)) :
    (start = frame.root ∧ rest = names) ∨
      ∃ first others, names = first :: others ∧ schema.field? frame.root first = none := by
  cases names with
  | nil =>
    simp only [locate, Except.ok.injEq, Prod.mk.injEq] at located
    exact .inl ⟨located.1.symm, located.2.symm⟩
  | cons first others =>
    simp only [locate, Frame.labelled?_eq_none unlabelled] at located
    split at located
    · simp only [Except.ok.injEq, Prod.mk.injEq] at located
      exact .inl ⟨located.1.symm, located.2.symm⟩
    · next undeclared =>
      exact .inr ⟨first, others, rfl, by simpa using undeclared⟩

end Schema

/-! ## What the analysis of parts says -/

section

variable {schema : Schema} {frames : List Frame} {read classes : List String}

/-- The analysis of a pair reads both and finds what is found in either. -/
theorem read_pair {first second : Except Error (List String)}
    (ran : (do pure ((← first) ++ (← second))) = .ok read)
    (included : read ⊆ classes) :
    (∃ found, first = .ok found ∧ found ⊆ classes) ∧
      ∃ found, second = .ok found ∧ found ⊆ classes := by
  obtain ⟨found, ranFirst, ran⟩ := bind_eq_ok.mp ran
  obtain ⟨found', ranSecond, finished⟩ := bind_eq_ok.mp ran
  obtain rfl := Except.ok.inj finished
  obtain ⟨inFirst, inSecond⟩ := List.append_subset.mp included
  exact ⟨⟨found, ranFirst, inFirst⟩, found', ranSecond, inSecond⟩

theorem read_each {es : List Expr}
    (ran : Expr.classesReadByEach schema frames es = .ok read)
    (included : read ⊆ classes) :
    ∀ e ∈ es, ∃ found, e.classesRead schema frames = .ok found ∧ found ⊆ classes := by
  induction es generalizing read with
  | nil => exact List.forall_mem_nil _
  | cons e rest inductionHypothesis =>
    rw [Expr.classesReadByEach] at ran
    obtain ⟨first, others, ranOthers, inOthers⟩ := read_pair ran included
    exact List.forall_mem_cons.mpr ⟨first, inductionHypothesis ranOthers inOthers⟩

/-- The owner of a collection is read, and its elements' class is found. -/
theorem read_collection {owner : List String} {collection element : String}
    (ran : schema.classesOfCollection frames owner collection = .ok (element, read))
    (included : read ⊆ classes) :
    ∃ last onWay found, schema.classesOnWay frames owner = .ok (last, onWay) ∧ onWay ⊆ classes ∧
      schema.requireCollection last collection = .ok found ∧ element = found.element ∧
        found.element ∈ classes := by
  obtain ⟨⟨last, onWay⟩, ranOwner, ran⟩ := bind_eq_ok.mp ran
  obtain ⟨found, required, finished⟩ := bind_eq_ok.mp ran
  obtain ⟨rfl, rfl⟩ := Prod.mk.inj (Except.ok.inj finished)
  obtain ⟨inOwner, inElement⟩ := List.append_subset.mp included
  exact ⟨last, onWay, found, ranOwner, inOwner, required, rfl,
    inElement (List.mem_singleton_self _)⟩

end

/-! ## Chains in two stores -/

namespace Store

theorem follow_append (store : Store) (start : Datum) (names names' : List String) :
    store.follow start (names ++ names') =
      store.follow start names >>= fun datum => store.follow datum names' := by
  induction names generalizing start with
  | nil => rfl
  | cons name rest inductionHypothesis =>
    rw [List.cons_append, follow, follow]
    cases store.step name start with
    | error error => rfl
    | ok datum => exact inductionHypothesis datum

/-- Behind a plain value a chain reads no object. -/
theorem follow_value_eq (store store' : Store) (value : Value) (names : List String) :
    store.follow (.value value) names = store'.follow (.value value) names := by
  induction names with
  | nil => rfl
  | cons name rest inductionHypothesis =>
    rw [follow, follow]
    cases value with
    | null => exact inductionHypothesis
    | _ => rfl

/-- What follows a plain value is a plain value. -/
theorem not_object_of_follow_value
    {store : Store}
    {value : Value}
    {names : List String}
    {handle : Nat} :
    store.follow (.value value) names ≠ .ok (.object handle) := by
  induction names with
  | nil => simp [follow]
  | cons name rest inductionHypothesis =>
    rw [follow]
    cases value with
    | null => exact inductionHypothesis
    | _ => simp [step]

/-- A property that the class does not declare is missing in an object of the class. -/
theorem Conforms.property_undeclared
    {schema : Schema}
    {store : Store}
    (conforms : store.Conforms schema)
    {handle : Nat}
    {object : StoredObject}
    {name : String}
    (found : store.objects[handle]? = some object)
    (undeclared : schema.field? object.className name = none) :
    store.property handle name = .error (.unknownProperty object.className name) := by
  have noField : object.fields.get? name = none := by
    refine Option.eq_none_iff_forall_not_mem.mpr fun value held => ?_
    have declared := conforms.field_declared found held
    simp [undeclared] at declared
  have noReference : object.references.get? name = none := by
    refine Option.eq_none_iff_forall_not_mem.mpr fun target held => ?_
    have declared := conforms.reference_declared found held
    simp [undeclared] at declared
  simp [property, Store.object, found, noField, noReference]

/-- A declared reference leads to an object of exactly the declared class. -/
theorem Conforms.isOfClass_of_property
    {schema : Schema}
    {store : Store}
    (conforms : store.Conforms schema)
    {handle target : Nat}
    {owner name key : String}
    {field : FieldDef}
    (isOf : store.IsOfClass handle owner)
    (declared : schema.field? owner name = some field)
    (reference : field.references = some key)
    (held : store.property handle name = .ok (.object target)) :
    store.IsOfClass target key := by
  intro referred foundReferred
  obtain ⟨object, found, held⟩ := bind_eq_ok.mp held
  replace found := object_eq_ok.mp found
  have holds : object.references.get? name = some (some target) := by
    split at held
    · cases held
    · split at held
      · next _ present => simpa [present] using held
      · cases held
      · cases held
  obtain ⟨field', declared', reference'⟩ := conforms.reference_class found holds foundReferred
  rw [isOf object found, declared] at declared'
  rw [← Option.some.inj declared', reference] at reference'
  exact (Option.some.inj reference').symm

/-- An element of a declared collection is of exactly the declared class. -/
theorem Conforms.isOfClass_of_collection
    {schema : Schema}
    {store : Store}
    (conforms : store.Conforms schema)
    {handle element : Nat}
    {owner name : String}
    {found : CollectionDef}
    {elements : List Nat}
    (isOf : store.IsOfClass handle owner)
    (declared : schema.collection? owner name = some found)
    (held : store.collection handle name = .ok elements)
    (member : element ∈ elements) :
    store.IsOfClass element found.element := by
  intro object foundElement
  obtain ⟨ownerObject, foundOwner, held⟩ := bind_eq_ok.mp held
  replace foundOwner := object_eq_ok.mp foundOwner
  split at held
  · next present =>
    obtain rfl := Except.ok.inj held
    obtain ⟨found', declared', sameElement⟩ :=
      conforms.element_class foundOwner present member foundElement
    rw [isOf ownerObject foundOwner, declared] at declared'
    rw [Option.some.inj declared', sameElement]
  · cases held

/-- Two stores that a schema describes and that agree on the objects of some classes. -/
structure Comparable
    (schema : Schema)
    (classes : List String)
    (store store' : Store) : Prop where
  named : schema.StoredByName
  shape : store.SameShape store'
  conforms : store.Conforms schema
  conforms' : store'.Conforms schema
  agree : store.AgreeOn classes store'

namespace Comparable

variable {schema : Schema} {classes : List String} {store store' : Store}
  (pair : Comparable schema classes store store')

include pair

/-- A chain fails in the same way in both stores when its first name is no field of the class. -/
theorem follow_undeclared
    {handle : Nat}
    {className first : String}
    (isOf : store.IsOfClass handle className)
    (undeclared : schema.field? className first = none)
    (others : List String) :
    ∃ error, store.follow (.object handle) (first :: others) = .error error ∧
      store'.follow (.object handle) (first :: others) = .error error := by
  simp only [follow, step]
  rcases pair.shape.object_cases handle with ⟨missing, missing'⟩ | ⟨object, _, found, found', same⟩
  · exact ⟨.unknownObject handle, by simp [property, Store.object, missing],
      by simp [property, Store.object, missing']⟩
  · rw [← isOf object found] at undeclared
    have inFirst := pair.conforms.property_undeclared found undeclared
    have inSecond := pair.conforms'.property_undeclared found' (same.1 ▸ undeclared)
    exact ⟨.unknownProperty object.className first, by rw [inFirst]; rfl,
      by rw [inSecond, same.1]; rfl⟩

/-- A chain of references is followed in the same way in both stores, and an object at its end is of
the class that the chain ends in. -/
theorem follow_references
    {names before : List String}
    {steps : List Step}
    {owner : String}
    {handle : Nat}
    (resolved : schema.resolveFrom owner before names = .ok steps)
    (isOf : store.IsOfClass handle owner)
    (ownerMember : owner ∈ classes)
    (targetMembers : ∀ step ∈ steps, step.target ∈ classes) :
    store.follow (.object handle) names = store'.follow (.object handle) names ∧
      ∀ target, store.follow (.object handle) names = .ok (.object target) →
        store.IsOfClass target (Schema.endOf owner steps) := by
  induction names generalizing owner before steps handle with
  | nil =>
    obtain rfl : [] = steps := Except.ok.inj resolved
    refine ⟨rfl, fun target reached => ?_⟩
    obtain rfl : handle = target := by simpa [follow] using reached
    exact isOf
  | cons name rest inductionHypothesis =>
    obtain ⟨field, key, target, others, declared, reference, found, remaining, rfl⟩ :=
      Schema.resolveFrom_cons resolved
    have sameProperty := AgreeOn.property_eq pair.shape pair.agree isOf ownerMember name
    simp only [follow, step, ← sameProperty, Schema.endOf_cons]
    cases held : store.property handle name with
    | error error => exact ⟨rfl, fun _ reached => by cases reached⟩
    | ok datum =>
      cases datum with
      | value value =>
        exact ⟨follow_value_eq store store' value rest,
          fun _ reached => absurd reached not_object_of_follow_value⟩
      | object next =>
        have isOfNext := pair.conforms.isOfClass_of_property isOf declared reference held
        rw [← pair.named key target found] at isOfNext
        exact inductionHypothesis remaining isOfNext (targetMembers _ List.mem_cons_self)
          fun step member => targetMembers step (List.mem_cons_of_mem _ member)

section Level

variable {frame : Frame} {outer : List Frame} {root : Nat}
  (unlabelled : frame.Unlabelled) (isOf : store.IsOfClass root frame.root)

include unlabelled isOf

/-- A chain that the analysis resolves is followed in the same way in both stores, and an object at
its end is of the class that the analysis ends in. -/
theorem follow_onWay
    {names read : List String}
    {last : String}
    (onWay : schema.classesOnWay (frame :: outer) names = .ok (last, read))
    (included : read ⊆ classes) :
    store.follow (.object root) names = store'.follow (.object root) names ∧
      ∀ target, store.follow (.object root) names = .ok (.object target) →
        store.IsOfClass target last ∧ last ∈ classes := by
  obtain ⟨⟨start, rest⟩, located, onWay⟩ := bind_eq_ok.mp onWay
  obtain ⟨_, -, onWay⟩ := bind_eq_ok.mp onWay
  obtain ⟨steps, resolved, finished⟩ := bind_eq_ok.mp onWay
  obtain ⟨rfl, rfl⟩ := Prod.mk.inj (Except.ok.inj finished)
  obtain ⟨_, -, resolved⟩ := bind_eq_ok.mp resolved
  rcases Schema.locate_cases unlabelled located with
    ⟨rfl, rfl⟩ | ⟨first, others, rfl, undeclared⟩
  · have startMember := included List.mem_cons_self
    have targetMembers : ∀ step ∈ steps, step.target ∈ classes := fun step member =>
      included (List.mem_cons_of_mem _ (List.mem_map_of_mem member))
    obtain ⟨same, ends⟩ :=
      pair.follow_references resolved isOf startMember targetMembers
    refine ⟨same, fun target reached => ⟨ends target reached, ?_⟩⟩
    cases steps.eq_nil_or_concat with
    | inl empty => rw [empty]; exact startMember
    | inr nonempty =>
      obtain ⟨initial, step, rfl⟩ := nonempty
      simpa [Schema.endOf] using targetMembers step (by simp)
  · obtain ⟨error, inFirst, inSecond⟩ := pair.follow_undeclared isOf undeclared others
    refine ⟨inFirst.trans inSecond.symm, fun target reached => ?_⟩
    rw [inFirst] at reached
    cases reached

theorem path_eq
    {p : Path}
    {read : List String}
    (analysed : (Expr.path p).classesRead schema (frame :: outer) = .ok read)
    (included : read ⊆ classes) :
    store.follow (.object root) p.segments = store'.follow (.object root) p.segments := by
  rw [Expr.classesRead] at analysed
  obtain ⟨⟨last, classesOnWay⟩, onWay, analysed⟩ := bind_eq_ok.mp analysed
  obtain ⟨_, -, finished⟩ := bind_eq_ok.mp analysed
  obtain rfl := Except.ok.inj finished
  obtain ⟨same, ends⟩ := pair.follow_onWay unlabelled isOf onWay included
  rw [Path.segments, follow_append, follow_append, ← same]
  cases reached : store.follow (.object root) p.owner with
  | error error => rfl
  | ok datum =>
    cases datum with
    | value value => exact follow_value_eq store store' value [p.name]
    | object target =>
      obtain ⟨isOfLast, lastMember⟩ := ends target reached
      simp only [ok_bind, follow, step,
        AgreeOn.property_eq pair.shape pair.agree isOfLast lastMember p.name]

theorem followToObject_eq
    {names read : List String}
    {last : String}
    (onWay : schema.classesOnWay (frame :: outer) names = .ok (last, read))
    (included : read ⊆ classes)
    (pathText : String) :
    store.followToObject root names pathText = store'.followToObject root names pathText ∧
      ∀ target, store.followToObject root names pathText = .ok (some target) →
        store.IsOfClass target last ∧ last ∈ classes := by
  obtain ⟨same, ends⟩ := pair.follow_onWay unlabelled isOf onWay included
  refine ⟨by rw [followToObject, followToObject, same], fun target reached => ?_⟩
  obtain ⟨datum, followed, reached⟩ := bind_eq_ok.mp reached
  split at reached
  · obtain rfl := Option.some.inj (Except.ok.inj reached)
    exact ends _ followed
  · cases reached
  · cases reached

/-- What is made of the elements of a collection is the same in both stores if it is the same for
elements of the class that the analysis finds. -/
theorem withElements_eq
    {owner read : List String}
    {collection element : String}
    {result result' : List Nat → Outcome}
    (ofCollection :
      schema.classesOfCollection (frame :: outer) owner collection = .ok (element, read))
    (included : read ⊆ classes)
    (same : ∀ elements, (∀ item ∈ elements, store.IsOfClass item element) →
      result elements = result' elements) :
    (store.followToObject root owner (dotted owner) >>= fun
        | none => .ok .null
        | some handle => store.collection handle collection >>= result) =
      (store'.followToObject root owner (dotted owner) >>= fun
        | none => .ok .null
        | some handle => store'.collection handle collection >>= result') := by
  obtain ⟨last, onWay, found, ranOwner, inOwner, required, rfl, -⟩ :=
    read_collection ofCollection included
  obtain ⟨sameOwner, ends⟩ := pair.followToObject_eq unlabelled isOf ranOwner inOwner (dotted owner)
  rw [← sameOwner]
  rcases reached : store.followToObject root owner (dotted owner) with error | _ | handle
  · rfl
  · rfl
  · obtain ⟨isOfLast, lastMember⟩ := ends handle reached
    simp only [ok_bind,
      ← AgreeOn.collection_eq pair.shape pair.agree isOfLast lastMember collection]
    cases held : store.collection handle collection with
    | error error => rfl
    | ok elements =>
      have declared := Schema.collection?_of_requireCollection required
      exact same elements fun item member =>
        pair.conforms.isOfClass_of_collection isOfLast declared held member

end Level

end Comparable

end Store

/-! ## Expressions in two stores -/

theorem anyMatches_congr
    {test test' : Nat → Except Error Bool}
    (elements : List Nat)
    (same : ∀ element ∈ elements, test element = test' element) :
    anyMatches test elements = anyMatches test' elements := by
  induction elements with
  | nil => rfl
  | cons element rest inductionHypothesis =>
    rw [anyMatches, anyMatches, same element List.mem_cons_self,
      inductionHypothesis fun other member => same other (List.mem_cons_of_mem _ member)]

section

variable {schema : Schema} {classes : List String} {store store' : Store}

/-- At every root of the class that the analysis assumes, both stores give the same outcome. -/
def Expr.SameOutcome
    (schema : Schema)
    (classes : List String)
    (store store' : Store)
    (e : Expr) : Prop :=
  ∀ {frame : Frame} {outer : List Frame} {read : List String} {root : Nat},
    frame.Unlabelled → store.IsOfClass root frame.root →
      e.classesRead schema (frame :: outer) = .ok read → read ⊆ classes →
        e.evaluateAt store root = e.evaluateAt store' root

/-- Every part of a list is read, and so has one outcome. -/
theorem evaluateEach_eq
    {es : List Expr}
    {frame : Frame}
    {outer : List Frame}
    {read : List String}
    {root : Nat}
    (each : ∀ e ∈ es, e.SameOutcome schema classes store store')
    (unlabelled : frame.Unlabelled)
    (isOf : store.IsOfClass root frame.root)
    (analysed : Expr.classesReadByEach schema (frame :: outer) es = .ok read)
    (included : read ⊆ classes) :
    Expr.evaluateEach store root es = Expr.evaluateEach store' root es := by
  rw [Expr.evaluateEach_eq_map, Expr.evaluateEach_eq_map]
  refine List.map_congr_left fun e member => ?_
  obtain ⟨_, readPart, inPart⟩ := read_each analysed included e member
  exact each e member unlabelled isOf readPart inPart

/-- The argument is a condition at the elements or a value at the root; both are the same. -/
theorem Expr.SameOutcome.contains
    {element : Expr}
    (pair : Store.Comparable schema classes store store')
    (ofElement : element.SameOutcome schema classes store store')
    (owner : List String)
    (collection : String) :
    (Expr.contains owner collection element).SameOutcome schema classes store store' := by
  intro frame outer read root unlabelled isOf analysed included
  rw [Expr.classesRead] at analysed
  obtain ⟨⟨elementClass, _⟩, ofCollection, analysed⟩ := bind_eq_ok.mp analysed
  obtain ⟨inside, readElement, finished⟩ := bind_eq_ok.mp analysed
  obtain rfl := Except.ok.inj finished
  obtain ⟨inCollection, inElement⟩ := List.append_subset.mp included
  rw [Expr.evaluateAt, Expr.evaluateAt]
  refine pair.withElements_eq unlabelled isOf ofCollection inCollection fun elements ofClass => ?_
  dsimp only
  rw [anyMatches_congr elements fun item member => ?_]
  cases condition : element.isBoolean with
  | true =>
    simp only [condition, if_true] at readElement ⊢
    rw [ofElement (by simp [Frame.Unlabelled]) (ofClass item member) readElement inElement]
  | false =>
    simp only [condition, Bool.false_eq_true, if_false] at readElement ⊢
    rw [ofElement unlabelled isOf readElement inElement, pair.shape.key_eq]

/-- At a root of the class that the analysis assumes, both stores give the same outcome. -/
theorem Expr.sameOutcome
    (pair : Store.Comparable schema classes store store')
    (e : Expr) : e.SameOutcome schema classes store store' := by
  induction e using Expr.parts_induction with
  | step e ofParts =>
    intro frame outer read root unlabelled isOf analysed included
    cases e with
    | literal _ | boolean _ | raw _ | query _ | nonempty _ | asterisk _ => rfl
    | parameter index _ => rw [evaluateAt, evaluateAt, pair.shape.parameter_eq]
    | path p =>
      rw [evaluateAt, evaluateAt, pair.path_eq unlabelled isOf analysed included,
        funext pair.shape.valueOf_eq]
    | binary _ left right | and left right | or left right | relational _ left right =>
      rw [classesRead] at analysed
      obtain ⟨⟨_, readLeft, inLeft⟩, _, readRight, inRight⟩ := read_pair analysed included
      rw [evaluateAt, evaluateAt,
        ofParts left List.mem_cons_self unlabelled isOf readLeft inLeft,
        ofParts right (List.mem_cons_of_mem _ List.mem_cons_self) unlabelled isOf readRight inRight]
    | negate operand | not operand | nullTest operand _ =>
      rw [classesRead] at analysed
      rw [evaluateAt, evaluateAt,
        ofParts operand List.mem_cons_self unlabelled isOf analysed included]
    | call function arguments =>
      rw [classesRead] at analysed
      rw [parts_call] at ofParts
      rw [evaluateAt, evaluateAt, evaluateEach_eq ofParts unlabelled isOf analysed included]
    | oneOf operand candidates =>
      rw [classesRead] at analysed
      rw [parts_oneOf] at ofParts
      obtain ⟨ofOperand, ofCandidates⟩ := List.forall_mem_cons.mp ofParts
      obtain ⟨⟨_, readOperand, inOperand⟩, _, readEach, inEach⟩ := read_pair analysed included
      rw [evaluateAt, evaluateAt, ofOperand unlabelled isOf readOperand inOperand,
        evaluateEach_eq ofCandidates unlabelled isOf readEach inEach]
    | count owner collection =>
      rw [classesRead] at analysed
      obtain ⟨⟨_, _⟩, ofCollection, finished⟩ := bind_eq_ok.mp analysed
      obtain rfl := Except.ok.inj finished
      rw [evaluateAt, evaluateAt]
      exact pair.withElements_eq unlabelled isOf ofCollection included fun _ _ => rfl
    | contains owner collection element =>
      rw [parts_contains] at ofParts
      exact (SameOutcome.contains pair (List.forall_mem_singleton.mp ofParts) owner collection)
        unlabelled isOf analysed included
    | classTag owner =>
      rw [classesRead] at analysed
      obtain ⟨⟨_, _⟩, onWay, finished⟩ := bind_eq_ok.mp analysed
      obtain rfl := Except.ok.inj finished
      obtain ⟨same, -⟩ := pair.followToObject_eq unlabelled isOf onWay
        (List.append_subset.mp included).1 (dotted owner)
      rw [evaluateAt, evaluateAt, ← same, funext pair.shape.className_eq]

end

/-! ## Noninterference -/

theorem Schema.mem_sortedNames (names : List String) (name : String) :
    name ∈ Schema.sortedNames names ↔ name ∈ names := by
  rw [Schema.sortedNames, List.mem_mergeSort, List.mem_eraseDups]

/-- What an expression gives depends on the objects of the involved classes only: two stores of one
shape whose objects conform to the schema, and which agree on those classes, give the same value or
the same failure. -/
theorem evaluate_eq_of_agreeOn_involved
    (schema : Schema)
    (named : schema.StoredByName)
    (e : Expr)
    (root : String)
    (classes : List String)
    (involved : schema.involvedClasses root e = .ok classes)
    (store store' : Store)
    (shape : store.SameShape store')
    (conforms : store.Conforms schema)
    (conforms' : store'.Conforms schema)
    (rootClass : store.IsOfClass store.root root)
    (agree : store.AgreeOn classes store') :
    store.evaluate e = store'.evaluate e := by
  obtain ⟨read, analysed, finished⟩ := bind_eq_ok.mp involved
  obtain rfl := Except.ok.inj finished
  have pair : Store.Comparable schema (Schema.sortedNames read) store store' :=
    ⟨named, shape, conforms, conforms', agree⟩
  rw [Store.evaluate, Store.evaluate, ← shape.root]
  exact Expr.sameOutcome pair e (by simp [Frame.Unlabelled]) rootClass analysed
    fun c member => (Schema.mem_sortedNames read c).mpr member

/-! ### A team and its audits -/

/-- Contacts that belong to groups, and audits that nothing refers to. -/
def teamSchema : Schema :=
  ⟨[("Contact",
      (ClassDef.stored "Contact" "contact").withField (.plain "Name" "name" .string)
        |>.withField (.reference "Team" "team_id" "Group")),
    ("Group",
      (ClassDef.stored "Group" "team").withCollection ⟨"Members", .oneToMany "Contact" "Team"⟩),
    ("Audit",
      (ClassDef.stored "Audit" "audit").withField (.plain "Note" "note" .string))]⟩

/-- A contact in a group of one, and an audit with this note. -/
def teamStore (note : String) : Store :=
  ⟨[⟨"Contact", .string "c", [("Name", .string "Ann")], [("Team", some 1)], []⟩,
    ⟨"Group", .string "g", [], [], [("Members", [0])]⟩,
    ⟨"Audit", .string "a", [("Note", .string note)], [], []⟩], none, []⟩

theorem teamStore_conforms (note : String) : (teamStore note).Conforms teamSchema := by
  have contactName : (teamSchema.field? "Contact" "Name").isSome := by cbv
  have contactTeam :
      teamSchema.field? "Contact" "Team" = some (.reference "Team" "team_id" "Group") := by cbv
  have auditNote : (teamSchema.field? "Audit" "Note").isSome := by cbv
  have groupMembers :
      teamSchema.collection? "Group" "Members" =
        some ⟨"Members", .oneToMany "Contact" "Team"⟩ := by cbv
  constructor
  all_goals
    intro handle
    rcases handle with _ | _ | _ | handle <;>
      grind [teamStore, Named.get?, FieldDef.reference, CollectionDef.element]

/-- `Team.Members.Contains(Name = 'Ann')` involves contacts and groups, so a changed audit leaves it
as it is. -/
theorem evaluate_eq_of_changed_audit :
    let e : Expr := .contains ["Team"] "Members"
      (.relational .equal (.path ⟨[], "Name"⟩) (.literal (.string "Ann")))
    (teamStore "old").evaluate e = (teamStore "new").evaluate e := by
  intro e
  refine evaluate_eq_of_agreeOn_involved teamSchema ?_ e "Contact" ["Contact", "Group"] (by cbv)
    (teamStore "old") (teamStore "new") ⟨rfl, rfl, rfl, ?_⟩ (teamStore_conforms "old")
    (teamStore_conforms "new") ?_ ?_
  · intro key c found
    simp only [Schema.find?, teamSchema, Named.get?, List.lookup_cons, List.lookup_nil] at found
    grind [ClassDef.withField, ClassDef.withCollection, ClassDef.stored]
  · intro handle
    rcases handle with _ | _ | _ | handle <;> grind [teamStore]
  · intro object found
    obtain rfl : _ = object := Option.some.inj found
    rfl
  · intro handle
    rcases handle with _ | _ | _ | handle <;>
      grind [teamStore, StoredObject.SameContent, Named.get?]

end ObjectQuery
