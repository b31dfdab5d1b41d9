import ObjectQuery.Schema.Document
import ObjectQuery.Proofs.Schema.Keys
import ObjectQuery.Proofs.Schema.Resolution

/-!
Contract: which chains of references can be followed.

A reference holds the key of a class. The chain goes on from the class that is found there, but by
the name of that class. Where classes are kept under their names, the two are the same; a document
may keep them under other keys.

Owns:
- `Schema.Follows`, a chain of references of which it is left open how it goes on;
- `isOk_resolveReferences_iff`, that resolution finds exactly the chains that go on by names, and
  which of them go on by keys.

Does not own: the steps that a resolved chain has.
-/

namespace ObjectQuery.Schema

variable {schema : Schema} {goOn goOn' : String → ClassDef → String}
variable {root owner name : String} {before names : List String}

/-- Names of references that lead from class to class: each one is a field of the class reached so
far and refers to a class that there is. The chain goes on from what `goOn` makes of the key that a
reference holds and the class that is found there. -/
inductive Follows (schema : Schema) (goOn : String → ClassDef → String) :
    String → List String → Prop where
  | done (owner : String) : Follows schema goOn owner []
  | step {owner name key : String} {names : List String} {field : FieldDef} {target : ClassDef}
      (declared : schema.field? owner name = some field)
      (refers : field.references = some key)
      (found : schema.find? key = some target)
      (following : Follows schema goOn (goOn key target) names) :
      Follows schema goOn owner (name :: names)

/-- The chain goes on from the key that the reference holds. -/
def FollowsKeys (schema : Schema) : String → List String → Prop :=
  schema.Follows fun key _ => key

/-- The chain goes on from the name of the class that was found. -/
def FollowsNames (schema : Schema) : String → List String → Prop :=
  schema.Follows fun _ target => target.name

/-- Two ways of going on that agree on the classes of a schema follow the same chains. -/
theorem Follows.congr
    (same : ∀ key target, schema.find? key = some target → goOn key target = goOn' key target)
    (follows : schema.Follows goOn owner names) :
    schema.Follows goOn' owner names := by
  induction follows with
  | done owner => exact .done owner
  | step declared refers found _ inductionHypothesis =>
    rw [same _ _ found] at inductionHypothesis
    exact .step declared refers found inductionHypothesis

theorem KeyedByName.followsKeys_iff (keyed : schema.KeyedByName) :
    schema.FollowsKeys owner names ↔ schema.FollowsNames owner names := by
  constructor
  · apply Follows.congr
    intro key target found
    exact (keyed.name_eq found).symm
  · apply Follows.congr
    intro key target found
    exact keyed.name_eq found

/-! ## Resolution -/

/-- A class with a field is a class that there is. -/
theorem exists_find?_of_field?
    {field : FieldDef}
    (declared : schema.field? owner name = some field) :
    ∃ c, schema.find? owner = some c := by
  cases found : schema.find? owner with
  | some c => exact ⟨c, rfl⟩
  | none =>
    have noClass : schema.ancestry owner = [] := by
      simp only [ancestry, maxDepth, ancestryUpTo, found]
    rw [field?, noClass] at declared
    cases declared

theorem requireField_eq_ok {field : FieldDef} (declared : schema.field? owner name = some field) :
    schema.requireField owner name = .ok field := by
  obtain ⟨c, found⟩ := exists_find?_of_field? declared
  simp only [requireField, require, found, declared, ok_bind, pure_eq_ok]

theorem resolveFrom_eq_ok_cons
    {key : String}
    {field : FieldDef}
    {target : ClassDef}
    {others : List Step}
    (declared : schema.field? owner name = some field)
    (refers : field.references = some key)
    (found : schema.find? key = some target)
    (remaining : schema.resolveFrom target.name (before ++ [name]) names = .ok others) :
    schema.resolveFrom owner before (name :: names) =
      .ok (⟨dotted (before ++ [name]), owner, field, target.name⟩ :: others) := by
  simp only [resolveFrom, requireField_eq_ok declared, refers, require, found, remaining, ok_bind,
    pure_eq_ok]

theorem exists_resolveFrom_eq_ok_iff :
    (∃ steps, schema.resolveFrom owner before names = .ok steps) ↔
      schema.FollowsNames owner names := by
  induction names generalizing owner before with
  | nil =>
    constructor
    · intro _
      exact .done owner
    · intro _
      exact ⟨[], rfl⟩
  | cons name names inductionHypothesis =>
    constructor
    · intro ⟨steps, resolved⟩
      obtain ⟨field, key, target, others, declared, refers, found, remaining, -⟩ :=
        resolveFrom_cons resolved
      exact .step declared refers found (inductionHypothesis.mp ⟨others, remaining⟩)
    · intro follows
      cases follows with
      | step declared refers found following =>
        obtain ⟨others, remaining⟩ := inductionHypothesis.mpr following
        exact ⟨_, resolveFrom_eq_ok_cons declared refers found remaining⟩

/-- References are resolved exactly if the root is a class and each of them, in the class reached so
far, leads to a class that there is, where the chain goes on by the names of classes. Where classes
are kept under their names, these are the chains that go on by the keys in the references. -/
theorem isOk_resolveReferences_iff (schema : Schema) (root : String) (names : List String) :
    ((schema.resolveReferences root names).isOk = true ↔
        (schema.find? root).isSome = true ∧ schema.FollowsNames root names) ∧
      (schema.KeyedByName →
        ((schema.resolveReferences root names).isOk = true ↔
          (schema.find? root).isSome = true ∧ schema.FollowsKeys root names)) := by
  have byNames :
      (schema.resolveReferences root names).isOk = true ↔
        (schema.find? root).isSome = true ∧ schema.FollowsNames root names := by
    have followed : (∃ steps, schema.resolveFrom root [] names = .ok steps) ↔
        schema.FollowsNames root names := exists_resolveFrom_eq_ok_iff
    rw [← followed, resolveReferences, require]
    cases schema.find? root with
    | none => simp [Except.isOk, Except.toBool]
    | some c =>
      rw [ok_bind]
      cases schema.resolveFrom root [] names <;> simp [Except.isOk, Except.toBool]
  refine ⟨byNames, fun keyed => ?_⟩
  rw [byNames, keyed.followsKeys_iff]

/-- From a house to the house of its owner and on, in classes that are added one by one. -/
theorem isOk_resolveReferences_iff_ofClasses :
    ∃ classes : List ClassDef,
      (ofClasses classes).KeyedByName ∧
        (ofClasses classes).FollowsKeys "House" ["Owner", "Home", "Owner"] ∧
        ¬(ofClasses classes).FollowsKeys "House" ["Owner", "Owner"] := by
  let classes : List ClassDef :=
    [{ ClassDef.stored "House" "house" with fields := [.reference "Owner" "owner" "Person"] },
      { ClassDef.stored "Person" "person" with fields := [.reference "Home" "home" "House"] }]
  have keyed := keyedByName_ofClasses classes
  have resolved (names : List String) :=
    (isOk_resolveReferences_iff (ofClasses classes) "House" names).2 keyed
  refine ⟨classes, keyed, ?_, ?_⟩
  · exact ((resolved ["Owner", "Home", "Owner"]).mp (by decide)).2
  · intro follows
    exact absurd ((resolved ["Owner", "Owner"]).mpr ⟨by decide, follows⟩) (by decide)

/-- Two classes that refer to each other, one of them under a key that is not its name. -/
def misfiled : Schema :=
  ⟨[("House",
      { ClassDef.stored "House" "house" with fields := [.reference "Owner" "owner" "P"] }),
    ("P",
      { ClassDef.stored "Person" "person" with fields := [.reference "Home" "home" "House"] })]⟩

/-- The document of a class with one reference. -/
def referenceDocument (name table field column target : String) : Json :=
  .object
    [("name", .string name), ("table", .string table),
      ("fields", .array
        [.object
          [("name", .string field), ("column", .string column), ("data_type", .string "Int32"),
            ("references", .string target), ("nullable", .boolean true)]])]

/-- The schema can be written as a document. The chain from the house to the home of its owner goes
on by keys through declared references, and yet its second name is looked for in a class that there
is not. -/
theorem not_isOk_resolveReferences_iff_misfiled :
    ofJson?
        (.object
          [("classes", .object
            [("House", referenceDocument "House" "house" "Owner" "owner" "P"),
              ("P", referenceDocument "Person" "person" "Home" "home" "House")])]) =
      some misfiled ∧
      misfiled.FollowsKeys "House" ["Owner", "Home"] ∧
      misfiled.resolveReferences "House" ["Owner", "Home"] = .error (.unknownClass "Person") := by
  refine ⟨by rfl, ?_, by decide⟩
  have owner : misfiled.field? "House" "Owner" = some (.reference "Owner" "owner" "P") := rfl
  have home : misfiled.field? "P" "Home" = some (.reference "Home" "home" "House") := rfl
  exact .step owner rfl rfl (.step home rfl rfl (.done "House"))

end ObjectQuery.Schema
