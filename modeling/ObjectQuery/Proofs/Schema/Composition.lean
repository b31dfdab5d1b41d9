import ObjectQuery.Proofs.Schema.Resolution

/-!
Contract: a chain of references may be cut anywhere.

A chain is resolved name by name, so its front part resolves as it does alone, and what stands
behind it resolves as a chain of its own from the class that the front part ends in. The same holds
of failures: the one further in front is the one that is reported.

Owns:
- `Step.behind`, a step of a chain that has got other names in front;
- the law of composition for resolved references, and the class in front of the last name of a path.

Does not own: which chains can be followed.
-/

namespace ObjectQuery

/-- A chain of names may be joined in parts. -/
theorem dotted_append_dotted
    (names : List String)
    {more : List String}
    (goesOn : more ≠ []) :
    dotted (names ++ [dotted more]) = dotted (names ++ more) := by
  by_cases empty : names = []
  · rw [empty, List.nil_append, List.nil_append]
    exact String.intercalate_singleton
  · have single : dotted [dotted more] = dotted more := String.intercalate_singleton
    calc
      dotted (names ++ [dotted more])
        = dotted names ++ "." ++ dotted [dotted more] :=
          String.intercalate_append_of_ne_nil empty (List.cons_ne_nil _ _)
      _ = dotted names ++ "." ++ dotted more := by rw [single]
      _ = dotted (names ++ more) := (String.intercalate_append_of_ne_nil empty goesOn).symm

/-- The step with these names in front of its path. -/
def Step.behind (names : List String) (step : Step) : Step :=
  { step with path := dotted (names ++ [step.path]) }

namespace Schema

variable {more : List String}

/-- What a name does in a class is the same in every chain: it ends the chain with a failure, or it
is a reference along which the chain goes on. -/
theorem resolveFrom_name (schema : Schema) (owner name : String) :
    (∃ error, ∀ before rest,
        schema.resolveFrom owner before (name :: rest) = .error error) ∨
      ∃ field target, ∀ before rest,
        schema.resolveFrom owner before (name :: rest) =
          (schema.resolveFrom target (before ++ [name]) rest).map
            (⟨dotted (before ++ [name]), owner, field, target⟩ :: ·) := by
  simp only [resolveFrom]
  cases schema.requireField owner name with
  | error error => exact .inl ⟨error, fun _ _ => rfl⟩
  | ok field =>
    simp only [ok_bind]
    cases field.references with
    | none => exact .inl ⟨_, fun _ _ => rfl⟩
    | some key =>
      dsimp only
      cases schema.require key with
      | error error => exact .inl ⟨error, fun _ _ => rfl⟩
      | ok target =>
        refine .inr ⟨field, target.name, fun before rest => ?_⟩
        simp only [ok_bind]
        cases schema.resolveFrom target.name (before ++ [name]) rest <;> rfl

/-- Names in front of a chain show in the paths of its steps and nowhere else. -/
theorem resolveFrom_behind (schema : Schema) (owner : String) (before names more : List String) :
    schema.resolveFrom owner (before ++ names) more =
      (schema.resolveFrom owner names more).map (List.map (Step.behind before)) := by
  induction more generalizing owner names with
  | nil => rfl
  | cons name more inductionHypothesis =>
    rcases schema.resolveFrom_name owner name with ⟨error, fails⟩ | ⟨field, target, leadsOn⟩
    · rw [fails, fails]
      rfl
    · have path : dotted (before ++ names ++ [name]) =
          dotted (before ++ [dotted (names ++ [name])]) := by
        rw [List.append_assoc, dotted_append_dotted before (by simp)]
      rw [leadsOn, leadsOn, path, List.append_assoc, inductionHypothesis]
      cases schema.resolveFrom target (names ++ [name]) more <;> rfl

/-- The second part of a chain is followed from the class that the first part ends in. -/
theorem resolveFrom_append (schema : Schema) (owner : String) (before names more : List String) :
    schema.resolveFrom owner before (names ++ more) = (do
      let first ← schema.resolveFrom owner before names
      let second ← schema.resolveFrom (endOf owner first) (before ++ names) more
      pure (first ++ second)) := by
  induction names generalizing owner before with
  | nil =>
    rw [List.append_nil]
    show schema.resolveFrom owner before more = (schema.resolveFrom owner before more >>= pure)
    exact (bind_pure _).symm
  | cons name names inductionHypothesis =>
    rw [List.cons_append]
    rcases schema.resolveFrom_name owner name with ⟨error, fails⟩ | ⟨field, target, leadsOn⟩
    · rw [fails, fails]
      rfl
    · rw [leadsOn, leadsOn, inductionHypothesis, List.append_assoc, List.singleton_append]
      cases schema.resolveFrom target (before ++ [name]) names with
      | error error => rfl
      | ok first =>
        have last := endOf_cons owner ⟨dotted (before ++ [name]), owner, field, target⟩ first
        simp only [ok_bind, pure_eq_ok, Except.map, last]
        cases schema.resolveFrom (endOf target first) (before ++ name :: names) more <;> rfl

/-- The first name is looked for in a class that there is, so that a chain with a name needs no
check of its root. -/
theorem resolveReferences_of_ne_nil (schema : Schema) (root : String) (goesOn : more ≠ []) :
    schema.resolveReferences root more = schema.resolveFrom root [] more := by
  cases more with
  | nil => exact absurd rfl goesOn
  | cons name rest =>
    simp only [resolveReferences, resolveFrom, requireField]
    cases schema.require root <;> rfl

theorem resolveReferences_append
    (schema : Schema)
    (root : String)
    (names : List String)
    (goesOn : more ≠ []) :
    schema.resolveReferences root (names ++ more) = (do
      let first ← schema.resolveReferences root names
      let second ← schema.resolveReferences (endOf root first) more
      pure (first ++ second.map (Step.behind names))) := by
  have second (owner : String) (first : List Step) :
      (do let second ← schema.resolveReferences owner more
          pure (first ++ second.map (Step.behind names))) =
        (do let second ← schema.resolveFrom owner names more
            pure (first ++ second)) := by
    have behind := schema.resolveFrom_behind owner names [] more
    rw [List.append_nil] at behind
    rw [resolveReferences_of_ne_nil schema owner goesOn, behind]
    cases schema.resolveFrom owner [] more <;> rfl
  simp only [second]
  rw [resolveReferences, resolveReferences, resolveFrom_append, List.nil_append]
  cases schema.require root <;> rfl

/-- A chain that is cut in front of a name resolves exactly if both parts do, the second one from
the class that the first one ends in. Its steps are then those of the first part and behind them
those of the second one, whose paths have the names of the first part in front; otherwise it fails
as the first part that fails. So a path that resolves belongs to the class that the names in front
of its last one lead to. -/
theorem references_compose
    (schema : Schema)
    (root : String)
    (names : List String)
    {more : List String}
    (goesOn : more ≠ []) :
    ((schema.resolveReferences root (names ++ more)).isOk = true ↔
        ∃ first second, schema.resolveReferences root names = .ok first ∧
          schema.resolveReferences (endOf root first) more = .ok second) ∧
      (∀ first second,
        schema.resolveReferences root names = .ok first →
          schema.resolveReferences (endOf root first) more = .ok second →
            schema.resolveReferences root (names ++ more) =
              .ok (first ++ second.map (Step.behind names))) ∧
      (∀ error,
        schema.resolveReferences root names = .error error →
          schema.resolveReferences root (names ++ more) = .error error) ∧
      (∀ first error,
        schema.resolveReferences root names = .ok first →
          schema.resolveReferences (endOf root first) more = .error error →
            schema.resolveReferences root (names ++ more) = .error error) ∧
      ∀ (path : Path) (name : String) (resolved : ResolvedPath),
        schema.resolvePath root ⟨path.segments, name⟩ = .ok resolved →
          schema.classOf root path.segments = .ok resolved.owner := by
  have composed := schema.resolveReferences_append root names goesOn
  refine ⟨?_, ?_, ?_, ?_, ?_⟩
  · rw [composed]
    constructor
    · intro succeeds
      obtain ⟨steps, whole⟩ := exists_eq_ok succeeds
      obtain ⟨first, firstResolved, rest⟩ := bind_eq_ok.mp whole
      obtain ⟨second, secondResolved, -⟩ := bind_eq_ok.mp rest
      exact ⟨first, second, firstResolved, secondResolved⟩
    · intro ⟨first, second, firstResolved, secondResolved⟩
      rw [firstResolved, ok_bind, secondResolved]
      rfl
  · intro first second firstResolved secondResolved
    rw [composed, firstResolved, ok_bind, secondResolved]
    rfl
  · intro error failed
    rw [composed, failed]
    rfl
  · intro first error firstResolved failed
    rw [composed, firstResolved, ok_bind, failed]
    rfl
  · intro path name resolved found
    obtain ⟨steps, reached, rest⟩ := bind_eq_ok.mp found
    obtain ⟨field, -, made⟩ := bind_eq_ok.mp rest
    rw [classOf, show schema.resolveReferences root path.segments = .ok steps from reached,
      ← Except.ok.inj made]
    rfl

/-- Houses with an owner, and persons with a home. -/
def households : Schema :=
  ofClasses
    [{ ClassDef.stored "House" "house" with fields := [.reference "Owner" "owner" "Person"] },
      { ClassDef.stored "Person" "person" with fields := [.reference "Home" "home" "House"] }]

/-- From a house to the owner of its owner's home and on to what is no reference of a person. -/
theorem references_compose_households :
    ["Home", "Owner"] ≠ [] ∧
      households.resolveReferences "House" (["Owner"] ++ ["Home", "Owner"]) =
        .ok
          [⟨"Owner", "House", .reference "Owner" "owner" "Person", "Person"⟩,
            ⟨"Owner.Home", "Person", .reference "Home" "home" "House", "House"⟩,
            ⟨"Owner.Home.Owner", "House", .reference "Owner" "owner" "Person", "Person"⟩] ∧
      ["Age"] ≠ [] ∧
      households.resolveReferences "House" (["Owner"] ++ ["Age"]) =
        .error (.unknownField "Person" "Age") := by
  have owner : households.resolveReferences "House" ["Owner"] =
      .ok [⟨"Owner", "House", .reference "Owner" "owner" "Person", "Person"⟩] := by rfl
  have home : households.resolveReferences "Person" ["Home", "Owner"] =
      .ok
        [⟨"Home", "Person", .reference "Home" "home" "House", "House"⟩,
          ⟨"Home.Owner", "House", .reference "Owner" "owner" "Person", "Person"⟩] := by rfl
  have age : households.resolveReferences "Person" ["Age"] =
      .error (.unknownField "Person" "Age") := by rfl
  have two : ["Home", "Owner"] ≠ [] := List.cons_ne_nil _ _
  have one : ["Age"] ≠ [] := List.cons_ne_nil _ _
  refine ⟨two, ?_, one, ?_⟩
  · exact (references_compose households "House" ["Owner"] two).2.1 _ _ owner home
  · exact (references_compose households "House" ["Owner"] one).2.2.2.1 _ _ owner age

end Schema

end ObjectQuery
