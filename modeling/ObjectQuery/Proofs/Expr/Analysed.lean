import ObjectQuery.Proofs.Expr.Arithmetic
import ObjectQuery.Proofs.Expr.Simplification
import ObjectQuery.Proofs.Schema.Places
import ObjectQuery.Proofs.Store.Complete

/-!
Contract: evaluation finds every name that the analysis has found.

The operators and functions fail for reasons of their own, such as types and overflow, and absorbed
failures are gone; none of this brings up a missing name. What is left are the chains of properties,
and the analysis has resolved these from the class of the root.

Owns:
- `FindsNames`, outcomes that do not fail for a missing name, and one lemma for each operation;
- that an analysed expression has such an outcome in a complete store.

Does not own: tests of collections, whose arguments are evaluated at other objects.
-/

namespace ObjectQuery

variable {α β : Type}

/-- The outcome is no failure for a missing class, property, collection or object. -/
def FindsNames (outcome : Except Error α) : Prop :=
  ∀ error, outcome = .error error → error.kind ≠ .schemaResolution

namespace FindsNames

theorem of_ok (value : α) : FindsNames (.ok value) := by
  rintro error ⟨⟩

theorem of_error {error : Error} (other : error.kind ≠ .schemaResolution) :
    FindsNames (.error error : Except Error α) := by
  rintro _ ⟨⟩
  exact other

theorem bind
    {first : Except Error α}
    {next : α → Except Error β}
    (ofFirst : FindsNames first)
    (ofNext : ∀ value, FindsNames (next value)) :
    FindsNames (first >>= next) := by
  cases first with
  | error error =>
    rintro _ ⟨⟩
    exact ofFirst error rfl
  | ok value => exact ofNext value

theorem map
    {outcome : Except Error α}
    (change : α → β)
    (finds : FindsNames outcome) :
    FindsNames (outcome.map change) := by
  cases outcome with
  | error error =>
    rintro _ ⟨⟩
    exact finds error rfl
  | ok value => exact of_ok _

end FindsNames

/-- Failures of operands are no missing names. -/
theorem Delivers.findsNames
    {good : α → Prop}
    {outcome : Except Error α}
    (delivers : Delivers good Error.IsOfOperands outcome) :
    FindsNames outcome := by
  cases delivers with
  | value => exact .of_ok _
  | failure isOfOperands =>
    apply FindsNames.of_error
    rcases isOfOperands with typing | arithmetic
    · rw [typing]
      decide
    · rw [arithmetic]
      decide

/-! ## Operators -/

theorem findsNames_compare (op : RelationalOp) (left right : Value) :
    FindsNames (Value.compare op left right) := by
  unfold Value.compare
  split
  · unfold Value.like
    split
    · exact .of_ok _
    · dsimp only
      split
      · exact .of_ok _
      · exact .of_error (by rintro ⟨⟩)
  · split
    · exact .of_ok _
    · exact (delivers_promote op.symbol left right).findsNames.bind fun _ => .of_ok _

theorem findsNames_ofValue (v : Value) : FindsNames (Truth.ofValue v) := by
  unfold Truth.ofValue
  split
  · exact .of_ok _
  · exact .of_ok _
  · exact .of_error (by rintro ⟨⟩)

/-- A join fails only as one of its sides does. -/
theorem findsNames_join
    {dominant : Bool}
    {left right : Except Error Truth}
    (ofLeft : FindsNames left)
    (ofRight : FindsNames right) :
    FindsNames (Truth.join dominant left right) := by
  unfold Truth.join
  split
  · exact .of_ok _
  · split
    · exact .of_error (ofLeft _ rfl)
    · exact .of_error (ofRight _ rfl)
    · exact .of_ok _
    · exact .of_ok _

/-! ## Functions -/

section Lists

variable {outcomes : List Outcome}

theorem findsNames_firstPresent (each : ∀ outcome ∈ outcomes, FindsNames outcome) :
    FindsNames (firstPresent outcomes) := by
  induction outcomes with
  | nil => exact .of_ok _
  | cons outcome rest inductionHypothesis =>
    obtain ⟨ofFirst, ofRest⟩ := List.forall_mem_cons.mp each
    cases outcome with
    | error error => exact .of_error (ofFirst error rfl)
    | ok value =>
      cases value with
      | null => exact inductionHypothesis ofRest
      | _ => exact .of_ok _

theorem findsNames_allValues (each : ∀ outcome ∈ outcomes, FindsNames outcome) :
    FindsNames (allValues outcomes) := by
  induction outcomes with
  | nil => exact .of_ok _
  | cons outcome rest inductionHypothesis =>
    obtain ⟨ofFirst, ofRest⟩ := List.forall_mem_cons.mp each
    cases outcome with
    | error error => exact .of_error (ofFirst error rfl)
    | ok value => exact (inductionHypothesis ofRest).map _

theorem findsNames_onText
    {function : String}
    {apply : String → Outcome}
    (ofText : ∀ text, FindsNames (apply text))
    (v : Value) :
    FindsNames (onText function apply v) := by
  unfold onText
  split
  · exact .of_ok _
  · exact ofText _
  · exact .of_error (by rintro ⟨⟩)

theorem findsNames_absolute (function : String) (v : Value) : FindsNames (absolute function v) := by
  unfold absolute
  split
  · exact .of_ok _
  · split
    · refine (findsNames_compare _ _ _).bind fun truth => ?_
      split
      · exact (isComputed_negate v).findsNames
      · exact .of_ok _
    · exact .of_error (by rintro ⟨⟩)

theorem findsNames_applyFunction
    (function : String)
    (each : ∀ outcome ∈ outcomes, FindsNames outcome) :
    FindsNames (applyFunction function outcomes) := by
  unfold applyFunction
  dsimp only
  split
  · exact findsNames_firstPresent each
  · refine (findsNames_allValues each).bind fun values => ?_
    split
    · exact .of_error (by rintro ⟨⟩)
    · next body _ known =>
      split at known
      · obtain rfl := Option.some.inj known
        exact findsNames_onText (fun _ => .of_ok _) _
      · obtain rfl := Option.some.inj known
        exact findsNames_onText (fun _ => .of_ok _) _
      · obtain rfl := Option.some.inj known
        exact findsNames_onText (fun _ => (isComputed_tallyValue _ _).findsNames) _
      · obtain rfl := Option.some.inj known
        exact findsNames_absolute function _
      · cases known
    · exact .of_error (by rintro ⟨⟩)

/-- The candidates are joined one after the other to what has been found so far. -/
theorem findsNames_anyEqual
    {operand : Outcome}
    (ofOperand : FindsNames operand)
    (each : ∀ outcome ∈ outcomes, FindsNames outcome) :
    FindsNames (anyEqual operand outcomes) := by
  have joined (found : Except Error Truth) (ofFound : FindsNames found) :
      FindsNames (outcomes.foldl (fun found candidate =>
        Truth.disjoin found do Value.compare .equal (← operand) (← candidate)) found) := by
    induction outcomes generalizing found with
    | nil => exact ofFound
    | cons candidate rest inductionHypothesis =>
      obtain ⟨ofFirst, ofRest⟩ := List.forall_mem_cons.mp each
      refine inductionHypothesis ofRest _ (findsNames_join ofFound ?_)
      exact ofOperand.bind fun _ => ofFirst.bind fun _ => findsNames_compare _ _ _
  exact joined _ (.of_ok _)

end Lists

/-! ## Nodes that evaluation comes to -/

namespace Expr

variable {test : Expr → Bool}

theorem everyReachedEach_iff {es : List Expr} :
    everyReachedEach test es = true ↔ ∀ e ∈ es, e.everyReached test = true := by
  induction es with
  | nil => simp [everyReachedEach]
  | cons e rest inductionHypothesis => simp [everyReachedEach, inductionHypothesis]

/-- What passes in an expression passes in its operands. -/
theorem everyReached_of_mem_operands
    {e part : Expr}
    (passed : e.everyReached test = true)
    (member : part ∈ e.operands) :
    part.everyReached test = true := by
  cases e with
  | literal _ | parameter _ _ | path _ | raw _ | query _ | boolean _ | nonempty _ | count _ _
  | asterisk _ | classTag _ => cases member
  | binary _ left right | and left right | or left right | relational _ left right =>
    simp only [everyReached, Bool.and_eq_true] at passed
    rcases List.mem_pair.mp member with rfl | rfl
    · exact passed.2.1
    · exact passed.2.2
  | negate operand | not operand | nullTest operand _ =>
    simp only [everyReached, Bool.and_eq_true] at passed
    exact List.mem_singleton.mp member ▸ passed.2
  | call _ arguments =>
    simp only [everyReached, Bool.and_eq_true] at passed
    exact everyReachedEach_iff.mp passed.2 part member
  | oneOf operand candidates =>
    simp only [everyReached, Bool.and_eq_true] at passed
    rcases List.mem_cons.mp member with rfl | among
    · exact passed.2.1
    · exact everyReachedEach_iff.mp passed.2.2 part among
  | contains owner collection element =>
    simp only [everyReached, Bool.and_eq_true] at passed
    rw [operands] at member
    split at member
    · cases member
    · exact List.mem_singleton.mp member ▸ passed.2

end Expr

/-! ## Expressions -/

namespace Schema

variable {schema : Schema} {root className : String} {names : List String}

/-- A chain that is looked up at the root alone starts there. -/
theorem exists_steps_of_reach
    (reached : schema.reach [⟨root, []⟩] names = .ok className) :
    ∃ steps, schema.resolveFrom root [] names = .ok steps ∧ endOf root steps = className := by
  have atRoot : schema.locate [⟨root, []⟩] names = .ok (root, names) := by
    cases names with
    | nil => rfl
    | cons first rest => simp [locate, Frame.labelled?, Frame.named?]
  rw [reach, atRoot, ok_bind] at reached
  obtain ⟨steps, resolved, finished⟩ := bind_eq_ok.mp reached
  obtain ⟨_, -, resolved⟩ := bind_eq_ok.mp resolved
  exact ⟨steps, resolved, Except.ok.inj finished⟩

end Schema

section

variable {schema : Schema} {store : Store} {root : String} {handle : Nat}
  (named : schema.StoredByName) (complete : store.Complete schema)
  (holds : store.Holds handle root)

include named complete holds

/-- The object that a chain leads to is of the class that the analysis comes to. -/
theorem Store.Complete.object_found
    {names : List String}
    {className : String}
    (reached : schema.reach [⟨root, []⟩] names = .ok className)
    (pathText : String) :
    ∃ found, store.followToObject handle names pathText = .ok found ∧
      ∀ target ∈ found, store.Holds target className := by
  obtain ⟨steps, resolved, rfl⟩ := Schema.exists_steps_of_reach reached
  obtain ⟨datum, followed, leads⟩ := complete.follow_references named resolved holds
  rw [followToObject, followed, ok_bind]
  cases datum with
  | value value =>
    obtain rfl : value = .null := leads
    exact ⟨none, rfl, by simp⟩
  | object target =>
    refine ⟨some target, rfl, fun other same => ?_⟩
    obtain rfl := Option.some.inj same
    exact leads

/-- A path that the analysis resolves has a value. -/
theorem Store.Complete.path_found
    {p : Path}
    {field : FieldDef}
    (declared : schema.fieldAt [⟨root, []⟩] p = .ok field) :
    ∃ value, (Expr.path p).evaluateAt store handle = .ok value := by
  obtain ⟨className, reached, required⟩ := bind_eq_ok.mp declared
  obtain ⟨steps, resolved, rfl⟩ := Schema.exists_steps_of_reach reached
  obtain ⟨datum, followed, leads⟩ := complete.follow_references named resolved holds
  rw [Expr.evaluateAt, Path.segments, Store.follow_append, followed, ok_bind]
  cases datum with
  | value value =>
    obtain rfl : value = .null := leads
    exact ⟨.null, rfl⟩
  | object target =>
    obtain ⟨last, value, held, isValue⟩ :=
      complete.property_found leads (Schema.field?_of_requireField required)
    exact ⟨value, by simp [Store.follow, Store.step, held, isValue]⟩

/-- An analysed expression without tests of collections finds all its names. -/
theorem Expr.findsNames_evaluateAt
    (e : Expr)
    (plain : e.everyReached (!·.isContains) = true)
    (analysed : (e.classesRead schema [⟨root, []⟩]).isOk) :
    FindsNames (e.evaluateAt store handle) := by
  induction e using Expr.parts_induction with
  | step e inductionHypothesis =>
    obtain ⟨resolves, inParts⟩ := (Place.isOk_classesRead ⟨[⟨root, []⟩], e⟩).mp analysed
    have each : ∀ part ∈ e.operands, FindsNames (part.evaluateAt store handle) := by
      intro part member
      refine inductionHypothesis part (List.mem_append_left _ member)
        (Expr.everyReached_of_mem_operands plain member) ?_
      exact (Place.forall_mem_parts.mp inParts).1 part member
    cases e with
    | literal _ | boolean _ => exact .of_ok _
    | raw _ | query _ | nonempty _ | asterisk _ => exact .of_error (by rintro ⟨⟩)
    | parameter index _ =>
      rw [Expr.evaluateAt, Store.parameter]
      split
      · exact .of_ok _
      · exact .of_error (by rintro ⟨⟩)
    | path p =>
      obtain ⟨field, declared⟩ := exists_eq_ok resolves
      obtain ⟨value, evaluated⟩ := complete.path_found named holds declared
      rw [evaluated]
      exact .of_ok _
    | binary op left right =>
      obtain ⟨ofLeft, ofRight⟩ := List.forall_mem_cons.mp each
      rw [Expr.evaluateAt]
      exact ofLeft.bind fun _ => (List.forall_mem_singleton.mp ofRight).bind fun _ =>
        (isComputed_arithmetic op _ _).findsNames
    | negate operand =>
      rw [Expr.evaluateAt]
      exact (List.forall_mem_singleton.mp each).bind fun v => (isComputed_negate v).findsNames
    | call function arguments =>
      rw [Expr.evaluateAt, Expr.evaluateEach_eq_map]
      exact findsNames_applyFunction function (List.forall_mem_map.mpr each)
    | and left right | or left right =>
      obtain ⟨ofLeft, ofRight⟩ := List.forall_mem_cons.mp each
      rw [Expr.evaluateAt]
      refine (findsNames_join ?_ ?_).map _
      · exact ofLeft.bind findsNames_ofValue
      · exact (List.forall_mem_singleton.mp ofRight).bind findsNames_ofValue
    | not operand =>
      rw [Expr.evaluateAt]
      exact ((List.forall_mem_singleton.mp each).bind findsNames_ofValue).bind fun _ => .of_ok _
    | relational op left right =>
      obtain ⟨ofLeft, ofRight⟩ := List.forall_mem_cons.mp each
      rw [Expr.evaluateAt]
      refine ofLeft.bind fun _ => (List.forall_mem_singleton.mp ofRight).bind fun _ => ?_
      exact (findsNames_compare op _ _).bind fun _ => .of_ok _
    | oneOf operand candidates =>
      obtain ⟨ofOperand, ofCandidates⟩ := List.forall_mem_cons.mp each
      rw [Expr.evaluateAt, Expr.evaluateEach_eq_map]
      exact (findsNames_anyEqual ofOperand (List.forall_mem_map.mpr ofCandidates)).map _
    | nullTest operand negated =>
      rw [Expr.evaluateAt]
      exact (List.forall_mem_singleton.mp each).bind fun _ => .of_ok _
    | count owner collection =>
      obtain ⟨declared, located⟩ := exists_eq_ok resolves
      obtain ⟨className, reached, required⟩ := bind_eq_ok.mp located
      obtain ⟨found, followed, isOf⟩ := complete.object_found named holds reached (dotted owner)
      rw [Expr.evaluateAt, followed, ok_bind]
      cases found with
      | none => exact .of_ok _
      | some target =>
        obtain ⟨elements, held⟩ := complete.collection_found (isOf target rfl)
          (Schema.collection?_of_requireCollection required)
        show FindsNames (store.collection target collection >>= fun elements =>
          tallyValue .collectionSize elements.length)
        rw [held, ok_bind]
        exact (isComputed_tallyValue _ _).findsNames
    | contains => simp [Expr.everyReached, Expr.isContains] at plain
    | classTag owner =>
      obtain ⟨className, reached⟩ := exists_eq_ok resolves
      obtain ⟨found, followed, isOf⟩ := complete.object_found named holds reached (dotted owner)
      rw [Expr.evaluateAt, followed, ok_bind]
      cases found with
      | none => exact .of_ok _
      | some target =>
        simp only [(isOf target rfl).className_eq_ok, ok_bind]
        exact .of_ok _

end

/-- Where the analysis of an expression without tests of collections succeeds, its evaluation does
not fail for a missing name: at a root object of the analysed class, in a store whose objects have
what their classes declare. It may fail for other reasons. -/
theorem evaluate_finds_names
    (schema : Schema)
    (named : schema.StoredByName)
    (e : Expr)
    (plain : e.everyReached (!·.isContains) = true)
    (root : String)
    (classes : List String)
    (analysed : schema.involvedClasses root e = .ok classes)
    (store : Store)
    (complete : store.Complete schema)
    (rootHeld : store.Holds store.root root)
    (error : Error)
    (failed : store.evaluate e = .error error) :
    error.kind ≠ .schemaResolution := by
  obtain ⟨read, analysis, -⟩ := bind_eq_ok.mp analysed
  have succeeds : (e.classesRead schema [⟨root, []⟩]).isOk := by
    rw [analysis]
    rfl
  exact Expr.findsNames_evaluateAt named complete rootHeld e plain succeeds error failed

/-- Employees are persons with a manager and reports, who are employees too. -/
def officeSchema : Schema :=
  ⟨[("Person",
      (ClassDef.stored "Person" "person").withField (.plain "Name" "name" .string)),
    ("Employee",
      (ClassDef.derived "Employee" "Person").withField
          (.reference "Manager" "manager_id" "Employee")
        |>.withCollection ⟨"Reports", .oneToMany "Employee" "Manager"⟩)]⟩

/-- One employee, who is their own manager. -/
def officeStore : Store :=
  ⟨[⟨"Employee", .string "e", [("Name", .string "Ann")], [("Manager", some 0)],
    [("Reports", [0])]⟩], none, []⟩

theorem officeSchema_field?_employee (name : String) :
    officeSchema.field? "Employee" name =
      if name = "Manager" then some (.reference "Manager" "manager_id" "Employee")
      else if name = "Name" then some (.plain "Name" "name" .string) else none := by
  unfold Schema.field?
  rw [show officeSchema.ancestry "Employee" = [_, _] from rfl]
  grind [ClassDef.ownField?, ClassDef.withField, ClassDef.withCollection, ClassDef.stored,
    ClassDef.derived, FieldDef.reference, FieldDef.plain]

theorem officeSchema_collection?_employee
    {name : String}
    (declared : (officeSchema.collection? "Employee" name).isSome) :
    name = "Reports" := by
  unfold Schema.collection? at declared
  rw [show officeSchema.ancestry "Employee" = [_, _] from rfl] at declared
  grind [ClassDef.ownCollection?, ClassDef.withField, ClassDef.withCollection, ClassDef.stored,
    ClassDef.derived]

theorem officeStore_complete : officeStore.Complete officeSchema := by
  constructor
  all_goals
    intro handle
    rcases handle with _ | handle <;>
      grind [officeStore, officeSchema_field?_employee, officeSchema_collection?_employee,
        Named.get?, FieldDef.reference, FieldDef.plain, Store.Holds]

/-- `Manager.Manager.Reports.Count / 0 = Manager.Name` finds everything that it names and fails in
the division. -/
theorem evaluate_finds_names_in_circle :
    let e : Expr := .relational .equal
      (.binary .divide (.count ["Manager", "Manager"] "Reports")
        (.literal (.integer ⟨.w32, 0, by decide⟩)))
      (.path ⟨["Manager"], "Name"⟩)
    officeStore.evaluate e = .error .divisionByZero ∧
      Error.divisionByZero.kind ≠ .schemaResolution := by
  intro e
  have failed : officeStore.evaluate e = .error .divisionByZero := by cbv
  refine ⟨failed, ?_⟩
  refine evaluate_finds_names officeSchema ?_ e (by cbv) "Employee" ["Employee"] (by cbv)
    officeStore officeStore_complete ⟨_, rfl, rfl⟩ _ failed
  intro key c found
  simp only [Schema.find?, officeSchema, Named.get?, List.lookup_cons, List.lookup_nil] at found
  grind [ClassDef.withField, ClassDef.withCollection, ClassDef.stored, ClassDef.derived]

end ObjectQuery
