import ObjectQuery.Schema.Resolution
import ObjectQuery.Proofs.Success

/-!
Contract: what a resolved chain of references says about the schema.

Owns: the look-ups behind a success of `require` and its relatives, and the first step of a resolved
chain.
-/

namespace ObjectQuery.Schema

variable {schema : Schema}

theorem endOf_cons (root : String) (step : Step) (steps : List Step) :
    endOf root (step :: steps) = endOf step.target steps := by
  cases steps with
  | nil => rfl
  | cons next rest =>
    rw [endOf, endOf, List.getLast?_cons_cons, List.getLast?_cons]
    rfl

theorem find?_of_require {key : String} {c : ClassDef} (required : schema.require key = .ok c) :
    schema.find? key = some c := by
  unfold require at required
  split at required
  · next found => rw [found, Except.ok.inj required]
  · cases required

theorem field?_of_requireField
    {key name : String}
    {field : FieldDef}
    (required : schema.requireField key name = .ok field) :
    schema.field? key name = some field := by
  obtain ⟨_, -, looked⟩ := bind_eq_ok.mp required
  split at looked
  · next found => rw [found, Except.ok.inj looked]
  · cases looked

theorem collection?_of_requireCollection
    {key name : String}
    {collection : CollectionDef}
    (required : schema.requireCollection key name = .ok collection) :
    schema.collection? key name = some collection := by
  obtain ⟨_, -, looked⟩ := bind_eq_ok.mp required
  split at looked
  · next found => rw [found, Except.ok.inj looked]
  · cases looked

theorem name_of_field? {key name : String} {field : FieldDef}
    (found : schema.field? key name = some field) : field.name = name := by
  obtain ⟨c, -, own⟩ := List.exists_of_findSome?_eq_some found
  have named := List.find?_some own
  exact of_decide_eq_true named

/-- One more reference is followed: it is a field of the class, and the chain goes on from the class
that it refers to. -/
theorem resolveFrom_cons
    {owner name : String}
    {before names : List String}
    {steps : List Step}
    (resolved : schema.resolveFrom owner before (name :: names) = .ok steps) :
    ∃ field key target others,
      schema.field? owner name = some field ∧ field.references = some key ∧
        schema.find? key = some target ∧
        schema.resolveFrom target.name (before ++ [name]) names = .ok others ∧
        steps = ⟨dotted (before ++ [name]), owner, field, target.name⟩ :: others := by
  obtain ⟨field, required, resolved⟩ := bind_eq_ok.mp resolved
  cases reference : field.references with
  | none => simp [reference] at resolved
  | some key =>
    simp only [reference] at resolved
    obtain ⟨target, found, resolved⟩ := bind_eq_ok.mp resolved
    obtain ⟨others, remaining, resolved⟩ := bind_eq_ok.mp resolved
    obtain rfl := Except.ok.inj resolved
    exact ⟨field, key, target, others, field?_of_requireField required, reference,
      find?_of_require found, remaining, rfl⟩

/-- The fields of the steps are those that were named. -/
theorem fields_of_resolveFrom
    {owner : String}
    {before names : List String}
    {steps : List Step}
    (resolved : schema.resolveFrom owner before names = .ok steps) :
    steps.map (·.field.name) = names := by
  induction names generalizing owner before steps with
  | nil =>
    obtain rfl := Except.ok.inj resolved
    rfl
  | cons name rest inductionHypothesis =>
    obtain ⟨field, _, _, others, declared, -, -, remaining, rfl⟩ := resolveFrom_cons resolved
    rw [List.map_cons, name_of_field? declared, inductionHypothesis remaining]

theorem fields_of_resolveReferences
    {root : String}
    {names : List String}
    {steps : List Step}
    (resolved : schema.resolveReferences root names = .ok steps) :
    steps.map (·.field.name) = names := by
  obtain ⟨_, -, resolved⟩ := bind_eq_ok.mp resolved
  exact fields_of_resolveFrom resolved

/-- Each step goes along a reference to its target. -/
theorem referenced?_of_resolveFrom
    {owner : String}
    {before names : List String}
    {steps : List Step}
    (resolved : schema.resolveFrom owner before names = .ok steps) :
    ∀ step ∈ steps, ∃ target, schema.referenced? step.field = some target ∧
      target.name = step.target := by
  induction names generalizing owner before steps with
  | nil =>
    obtain rfl := Except.ok.inj resolved
    exact fun _ member => nomatch member
  | cons name rest inductionHypothesis =>
    obtain ⟨field, key, target, others, -, reference, found, remaining, rfl⟩ :=
      resolveFrom_cons resolved
    refine List.forall_mem_cons.mpr ⟨⟨target, ?_, rfl⟩, inductionHypothesis remaining⟩
    exact Option.bind_eq_some_iff.mpr ⟨key, reference, found⟩

theorem referenced?_of_resolveReferences
    {root : String}
    {names : List String}
    {steps : List Step}
    (resolved : schema.resolveReferences root names = .ok steps) :
    ∀ step ∈ steps, ∃ target, schema.referenced? step.field = some target ∧
      target.name = step.target := by
  obtain ⟨_, -, resolved⟩ := bind_eq_ok.mp resolved
  exact referenced?_of_resolveFrom resolved

end ObjectQuery.Schema
