import ObjectQuery.Proofs.Store.Complete

/-!
Contract: a path may be cut anywhere.

What a path does at one object is what its second part does at the object to which its first part
leads. This is so for a path that is read as a value and for a path in front of `Count`,
`SoodaClass` and `Contains`, which need an object at its end. The one trace of a cut is the message
that there is no object, which names the path as it is written.

Owns:
- `Path.behind`, a path behind another;
- `PathUse`, what a path is for, and what a use makes of the end of a path;
- the law of composition, and where the two sides differ.

Does not own: what a chain of properties leads to.
-/

namespace ObjectQuery

/-! ## Paths in a row -/

namespace Path

/-- The second path behind the first one. -/
def behind (first second : Path) : Path :=
  ⟨first.segments ++ second.owner, second.name⟩

variable (first second : Path)

theorem segments_ne_nil : first.segments ≠ [] := by
  simp [segments]

@[simp]
theorem segments_behind :
    (first.behind second).segments = first.segments ++ second.segments :=
  List.append_assoc first.segments second.owner [second.name]

theorem dotted_behind :
    (first.behind second).dotted = first.dotted ++ "." ++ second.dotted := by
  rw [dotted, segments_behind]
  exact String.intercalate_append_of_ne_nil first.segments_ne_nil second.segments_ne_nil

/-- A path is written differently behind another one. -/
theorem dotted_behind_ne : (first.behind second).dotted ≠ second.dotted := by
  intro same
  have sameLength := congrArg String.length same
  have dotLength : ".".length = 1 := by decide
  simp only [dotted_behind, String.length_append] at sameLength
  omega

end Path

namespace Store

variable {store : Store} {root target : Nat} {names names' : List String}

/-- Behind an object the chain goes on from there. -/
theorem follow_append_of_object
    (reached : store.follow (.object root) names = .ok (.object target)) :
    store.follow (.object root) (names ++ names') = store.follow (.object target) names' := by
  rw [follow_append, reached, ok_bind]

/-- Behind null everything is null. -/
theorem follow_append_of_null
    (reached : store.follow (.object root) names = .ok (.value .null)) :
    store.follow (.object root) (names ++ names') = .ok (.value .null) := by
  rw [follow_append, reached, ok_bind, follow_null]

/-- Behind a plain value there are no properties. -/
theorem follow_append_of_value
    {value : Value}
    (reached : store.follow (.object root) names = .ok (.value value))
    (present : value ≠ .null)
    (more : names' ≠ []) :
    ∃ name, store.follow (.object root) (names ++ names') =
      .error (.propertyOfValue name value.type) := by
  rw [follow_append, reached, ok_bind]
  cases names' with
  | nil => exact absurd rfl more
  | cons name others =>
    refine ⟨name, ?_⟩
    cases value with
    | null => exact absurd rfl present
    | _ => rfl

/-- Behind a failure nothing is tried. -/
theorem follow_append_of_failure
    {error : Error}
    (failed : store.follow (.object root) names = .error error) :
    store.follow (.object root) (names ++ names') = .error error := by
  rw [follow_append, failed, error_bind]

end Store

/-! ## Uses of a path -/

/-- A question to the object at the end of a path. The argument of `contains` is a condition by its
kind, so that it belongs to the elements and not to the root. -/
inductive ObjectQuestion where
  | count (collection : String)
  | classTag
  | contains (collection : String) (element : Expr) (isCondition : element.isBoolean = true)

namespace ObjectQuestion

/-- The question with these names in front of it. -/
def applied (owner : List String) : ObjectQuestion → Expr
  | count collection => .count owner collection
  | classTag => .classTag owner
  | contains collection element _ => .contains owner collection element

/-- The answer of an object. -/
def answer (store : Store) (handle : Nat) : ObjectQuestion → Outcome
  | count collection => do
    tallyValue .collectionSize (← store.collection handle collection).length
  | classTag => do pure (.string (← store.className handle))
  | contains collection element _ => do
    let elements ← store.collection handle collection
    let holdsAt (item : Nat) : Except Error Bool := do
      let t ← element.evaluateAt store item >>= Truth.ofValue
      pure (t == some true)
    pure (.boolean (← anyMatches holdsAt elements))

/-- The answer at the end of a path. -/
def answerAt (store : Store) (pathText : String) (question : ObjectQuestion) : Datum → Outcome
  | .object handle => question.answer store handle
  | .value .null => .ok .null
  | .value v => .error (.notAnObject pathText v.type)

/-- The answer depends on the root only through the end of the path. -/
theorem evaluateAt_applied
    (store : Store)
    (root : Nat)
    (owner : List String)
    (question : ObjectQuestion) :
    (question.applied owner).evaluateAt store root =
      store.follow (.object root) owner >>= question.answerAt store (dotted owner) := by
  have asks : (question.applied owner).evaluateAt store root =
      store.followToObject root owner (dotted owner) >>= fun found =>
        found.elim (.ok .null) (question.answer store) := by
    cases question with
    | count collection | classTag =>
      rw [applied, Expr.evaluateAt]
      congr 1
      funext found
      cases found <;> rfl
    | contains collection element isCondition =>
      rw [applied, Expr.evaluateAt]
      simp only [isCondition, if_true]
      congr 1
      funext found
      cases found <;> rfl
  rw [asks, Store.followToObject]
  cases store.follow (.object root) owner with
  | error error => rfl
  | ok datum =>
    cases datum with
    | object handle => rfl
    | value value => cases value <;> rfl

end ObjectQuestion

/-- What a path is for: its value, or a question to the object at its end. -/
inductive PathUse where
  | read
  | ask (question : ObjectQuestion)

namespace PathUse

/-- The expression in which the path stands. -/
def applied (path : Path) : PathUse → Expr
  | read => .path path
  | ask question => question.applied path.segments

/-- What the use makes of the end of the path. -/
def atEnd (store : Store) (pathText : String) : PathUse → Datum → Outcome
  | read => store.valueOf
  | ask question => question.answerAt store pathText

theorem evaluateAt_applied
    (store : Store)
    (root : Nat)
    (path : Path)
    (use : PathUse) :
    (use.applied path).evaluateAt store root =
      store.follow (.object root) path.segments >>= use.atEnd store path.dotted := by
  cases use with
  | read =>
    rw [applied, Expr.evaluateAt]
    rfl
  | ask question => exact question.evaluateAt_applied store root path.segments

/-- A question meets a plain value other than null where it needs an object. -/
def Misses (use : PathUse) (store : Store) (root : Nat) (path : Path) (value : Value) : Prop :=
  use ≠ read ∧ value ≠ .null ∧ store.follow (.object root) path.segments = .ok (.value value)

/-- Only a question that meets a plain value tells how the path is written. -/
theorem atEnd_congr
    {store : Store}
    {root : Nat}
    {path : Path}
    {use : PathUse}
    (meets : ∀ value, ¬ use.Misses store root path value)
    (pathText pathText' : String) :
    store.follow (.object root) path.segments >>= use.atEnd store pathText =
      store.follow (.object root) path.segments >>= use.atEnd store pathText' := by
  cases use with
  | read => rfl
  | ask question =>
    cases reached : store.follow (.object root) path.segments with
    | error error => rfl
    | ok datum =>
      cases datum with
      | object handle => rfl
      | value value =>
        by_cases isNull : value = .null
        · rw [isNull]
          rfl
        · exact absurd ⟨by rintro ⟨⟩, isNull, reached⟩ (meets value)

theorem Misses.atEnd_eq
    {store : Store}
    {root : Nat}
    {path : Path}
    {use : PathUse}
    {value : Value}
    (misses : use.Misses store root path value)
    (pathText : String) :
    store.follow (.object root) path.segments >>= use.atEnd store pathText =
      .error (.notAnObject pathText value.type) := by
  obtain ⟨asks, present, reached⟩ := misses
  rw [reached, ok_bind]
  cases use with
  | read => exact absurd rfl asks
  | ask question =>
    cases value with
    | null => exact absurd rfl present
    | _ => rfl

section Cut

variable {store : Store} {root target : Nat} {first second : Path} {use : PathUse}

/-- Behind an object the use makes the same of the end of the path, whose text is the longer one. -/
theorem evaluateAt_behind
    (reached : store.follow (.object root) first.segments = .ok (.object target)) :
    (use.applied (first.behind second)).evaluateAt store root =
      store.follow (.object target) second.segments >>=
        use.atEnd store (first.behind second).dotted := by
  rw [evaluateAt_applied, Path.segments_behind, Store.follow_append_of_object reached]

theorem Misses.evaluateAt_eq
    {value : Value}
    (misses : use.Misses store target second value)
    (reached : store.follow (.object root) first.segments = .ok (.object target)) :
    (use.applied (first.behind second)).evaluateAt store root =
        .error (.notAnObject (first.behind second).dotted value.type) ∧
      (use.applied second).evaluateAt store target =
        .error (.notAnObject second.dotted value.type) := by
  rw [evaluateAt_behind reached, evaluateAt_applied]
  exact ⟨misses.atEnd_eq _, misses.atEnd_eq _⟩

theorem Misses.evaluateAt_ne
    {value : Value}
    (misses : use.Misses store target second value)
    (reached : store.follow (.object root) first.segments = .ok (.object target)) :
    (use.applied (first.behind second)).evaluateAt store root ≠
      (use.applied second).evaluateAt store target := by
  obtain ⟨atRoot, atTarget⟩ := misses.evaluateAt_eq reached
  rw [atRoot, atTarget]
  intro same
  apply Path.dotted_behind_ne first second
  simpa using same

/-- The cut shows only where a question meets a plain value. -/
theorem evaluateAt_behind_eq_iff
    (reached : store.follow (.object root) first.segments = .ok (.object target)) :
    (use.applied (first.behind second)).evaluateAt store root =
        (use.applied second).evaluateAt store target ↔
      ∀ value, ¬ use.Misses store target second value := by
  constructor
  · intro same value misses
    exact misses.evaluateAt_ne reached same
  · intro meets
    rw [evaluateAt_behind reached, evaluateAt_applied]
    exact atEnd_congr meets _ _

end Cut

end PathUse

/-! ## The law of composition -/

/-- A path that is cut in two at any point. Where the first part leads to an object, the path does
what its second part does at this object; the only exception is a question to a plain value, where
both fail because it is not an object, and each names the path that it was given. Behind null
everything is null, behind another plain value nothing can be read, and a failure on the first part
is the failure of the path. -/
theorem path_evaluation_composes
    (store : Store)
    (root : Nat)
    (first second : Path)
    (use : PathUse) :
    (∀ target, store.follow (.object root) first.segments = .ok (.object target) →
      ((use.applied (first.behind second)).evaluateAt store root =
          (use.applied second).evaluateAt store target ↔
        ∀ value, ¬ use.Misses store target second value) ∧
      ∀ value, use.Misses store target second value →
        (use.applied (first.behind second)).evaluateAt store root =
            .error (.notAnObject (first.behind second).dotted value.type) ∧
          (use.applied second).evaluateAt store target =
            .error (.notAnObject second.dotted value.type)) ∧
    (store.follow (.object root) first.segments = .ok (.value .null) →
      (use.applied (first.behind second)).evaluateAt store root = .ok .null) ∧
    (∀ value, store.follow (.object root) first.segments = .ok (.value value) → value ≠ .null →
      ∃ error, (use.applied (first.behind second)).evaluateAt store root = .error error ∧
        error.kind = .typing) ∧
    ∀ error, store.follow (.object root) first.segments = .error error →
      (use.applied (first.behind second)).evaluateAt store root = .error error := by
  refine ⟨?atObject, ?atNull, ?atValue, ?atFailure⟩
  case atObject =>
    intro target reached
    exact ⟨PathUse.evaluateAt_behind_eq_iff reached,
      fun value misses => misses.evaluateAt_eq reached⟩
  case atNull =>
    intro reached
    rw [PathUse.evaluateAt_applied, Path.segments_behind, Store.follow_append_of_null reached]
    cases use <;> rfl
  case atValue =>
    intro value reached present
    obtain ⟨name, failed⟩ :=
      Store.follow_append_of_value reached present second.segments_ne_nil
    refine ⟨.propertyOfValue name value.type, ?_, rfl⟩
    rw [PathUse.evaluateAt_applied, Path.segments_behind, failed, error_bind]
  case atFailure =>
    intro error failed
    rw [PathUse.evaluateAt_applied, Path.segments_behind, Store.follow_append_of_failure failed,
      error_bind]

/-- Two objects that own each other; the first one has no heir. -/
def owners : Store :=
  ⟨[⟨"House", .string "h", [("Name", .string "home")], [("Owner", some 1), ("Heir", none)], []⟩,
    ⟨"Person", .string "p", [("Name", .string "Ann")], [("Owner", some 0)], []⟩], none, []⟩

/-- The first part ends in all four ways: in an object, in null, in a plain value, in a failure. -/
theorem path_evaluation_composes_owners :
    (owners.follow (.object 0) ["Owner"] = .ok (.object 1) ∧
      (Expr.path ⟨["Owner"], "Name"⟩).evaluateAt owners 0 =
        (Expr.path ⟨[], "Name"⟩).evaluateAt owners 1 ∧
      (Expr.classTag ["Owner", "Name"]).evaluateAt owners 0 =
          .error (.notAnObject "Owner.Name" (.data .string)) ∧
        (Expr.classTag ["Name"]).evaluateAt owners 1 = .error (.notAnObject "Name" (.data .string))) ∧
    (owners.follow (.object 0) ["Heir"] = .ok (.value .null) ∧
      (Expr.path ⟨["Heir"], "Name"⟩).evaluateAt owners 0 = .ok .null) ∧
    (owners.follow (.object 0) ["Name"] = .ok (.value (.string "home")) ∧
      ∃ error, (Expr.path ⟨["Name"], "Name"⟩).evaluateAt owners 0 = .error error ∧
        error.kind = .typing) ∧
    owners.follow (.object 0) ["Mayor"] = .error (.unknownProperty "House" "Mayor") ∧
      (Expr.path ⟨["Mayor"], "Name"⟩).evaluateAt owners 0 =
        .error (.unknownProperty "House" "Mayor") := by
  refine ⟨⟨rfl, ?_, ?_⟩, ⟨rfl, ?_⟩, ⟨rfl, ?_⟩, rfl, ?_⟩
  · apply ((path_evaluation_composes owners 0 ⟨[], "Owner"⟩ ⟨[], "Name"⟩ .read).1 1 rfl).1.mpr
    intro value misses
    exact misses.1 rfl
  · apply ((path_evaluation_composes owners 0 ⟨[], "Owner"⟩ ⟨[], "Name"⟩ (.ask .classTag)).1
      1 rfl).2 (.string "Ann")
    exact ⟨by rintro ⟨⟩, by rintro ⟨⟩, rfl⟩
  · exact (path_evaluation_composes owners 0 ⟨[], "Heir"⟩ ⟨[], "Name"⟩ .read).2.1 rfl
  · apply (path_evaluation_composes owners 0 ⟨[], "Name"⟩ ⟨[], "Name"⟩ .read).2.2.1 _ rfl
    rintro ⟨⟩
  · exact (path_evaluation_composes owners 0 ⟨[], "Mayor"⟩ ⟨[], "Name"⟩ .read).2.2.2 _ rfl

/-- The class of the owner's name is asked for in two ways, with two messages. -/
theorem not_path_evaluation_composes :
    owners.follow (.object 0) ["Owner"] = .ok (.object 1) ∧
      (Expr.classTag ["Owner", "Name"]).evaluateAt owners 0 ≠
        (Expr.classTag ["Name"]).evaluateAt owners 1 := by
  refine ⟨rfl, ?_⟩
  have misses :
      (PathUse.ask .classTag).Misses owners 1 ⟨[], "Name"⟩ (.string "Ann") :=
    ⟨by rintro ⟨⟩, by rintro ⟨⟩, rfl⟩
  have reached : owners.follow (.object 0) (Path.segments ⟨[], "Owner"⟩) = .ok (.object 1) := rfl
  exact misses.evaluateAt_ne reached

end ObjectQuery
