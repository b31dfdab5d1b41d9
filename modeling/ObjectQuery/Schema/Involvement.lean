import ObjectQuery.Schema.Resolution

/-!
Contract: the classes whose objects an expression or query reads.

A change to a class that is not among them leaves the results as they are.

Owns:
- `Frame`, what names mean at one level of nesting;
- `locate`, where a chain of names starts;
- `Schema.involvedClasses` and `Schema.involvedClassesOfQuery`.
-/

namespace ObjectQuery

/-- One level of nesting: the class that bare names belong to, and the from items that a name may
stand for. -/
structure Frame where
  root : String
  entries : List FromItem
deriving DecidableEq, Repr

namespace Frame

/-- The first from item with this label. -/
def labelled? (frame : Frame) (name : String) : Option FromItem :=
  frame.entries.find? (·.label = some name)

/-- The first from item with this label, or else the first one without a label of this class. -/
def named? (frame : Frame) (name : String) : Option FromItem :=
  (frame.labelled? name).or
    (frame.entries.find? fun item => item.label = none ∧ item.className = name)

end Frame

namespace Schema

/-- The class that a chain of names starts from and the names that are left. The first name is a
label of the innermost level, or else a field of its root class, or else a from item of any level,
inner ones first; with none of these the chain starts from the root class. -/
def locate (schema : Schema) (frames : List Frame) (names : List String) :
    Except Error (String × List String) :=
  match frames with
  | [] => .error .pathOutsideQuery
  | frame :: _ =>
    match names with
    | [] => .ok (frame.root, [])
    | first :: rest =>
      match frame.labelled? first with
      | some item => .ok (item.className, rest)
      | none =>
        if (schema.field? frame.root first).isSome then
          .ok (frame.root, first :: rest)
        else
          match frames.findSome? (·.named? first) with
          | some item => .ok (item.className, rest)
          | none => .ok (frame.root, first :: rest)

/-- The class that a chain of names leads to, with all classes on the way. -/
def classesOnWay (schema : Schema) (frames : List Frame) (names : List String) :
    Except Error (String × List String) := do
  let (start, rest) ← schema.locate frames names
  let _ ← schema.require start
  let steps ← schema.resolveReferences start rest
  pure (endOf start steps, start :: steps.map (·.target))

/-- The element class of a collection, with all classes on the way and itself. -/
def classesOfCollection
    (schema : Schema)
    (frames : List Frame)
    (owner : List String)
    (collection : String) : Except Error (String × List String) := do
  let (ownerClass, classes) ← schema.classesOnWay frames owner
  let found ← schema.requireCollection ownerClass collection
  pure (found.element, classes ++ [found.element])

/-- The classes of from items, which all have to exist. -/
def classesOfSources (schema : Schema) : List FromItem → Except Error (List String)
  | [] => .ok []
  | item :: rest => do
    let _ ← schema.require item.className
    pure (item.className :: (← schema.classesOfSources rest))

end Schema

mutual

/-- The classes that an expression reads, in the order in which it names them. -/
def Expr.classesRead (schema : Schema) (frames : List Frame) : Expr → Except Error (List String)
  | .literal _ => .ok []
  | .parameter .. => .ok []
  | .path p => do
    let (ownerClass, classes) ← schema.classesOnWay frames p.owner
    let _ ← schema.requireField ownerClass p.name
    pure classes
  | .binary _ left right => do
    pure ((← left.classesRead schema frames) ++ (← right.classesRead schema frames))
  | .negate operand => operand.classesRead schema frames
  | .call _ arguments => Expr.classesReadByEach schema frames arguments
  | .raw _ => .ok []
  | .query q => q.classesRead schema frames
  | .and left right => do
    pure ((← left.classesRead schema frames) ++ (← right.classesRead schema frames))
  | .or left right => do
    pure ((← left.classesRead schema frames) ++ (← right.classesRead schema frames))
  | .not operand => operand.classesRead schema frames
  | .relational _ left right => do
    pure ((← left.classesRead schema frames) ++ (← right.classesRead schema frames))
  | .oneOf operand candidates => do
    pure ((← operand.classesRead schema frames)
      ++ (← Expr.classesReadByEach schema frames candidates))
  | .nullTest operand _ => operand.classesRead schema frames
  | .boolean _ => .ok []
  | .nonempty q => q.classesRead schema frames
  | .count owner collection => do
    pure (← schema.classesOfCollection frames owner collection).2
  | .contains owner collection element => do
    let (elementClass, classes) ← schema.classesOfCollection frames owner collection
    let inner : List Frame :=
      if element.isBoolean then ⟨elementClass, [⟨elementClass, none⟩]⟩ :: frames else frames
    pure (classes ++ (← element.classesRead schema inner))
  | .asterisk owner => do pure (← schema.classesOnWay frames owner).2
  | .classTag owner => do
    let (tagged, classes) ← schema.classesOnWay frames owner
    pure (classes ++ (schema.subclasses tagged).map (·.name))

/-- The classes that several expressions read. -/
def Expr.classesReadByEach (schema : Schema) (frames : List Frame) :
    List Expr → Except Error (List String)
  | [] => .ok []
  | e :: rest => do
    pure ((← e.classesRead schema frames) ++ (← Expr.classesReadByEach schema frames rest))

/-- The classes that a clause reads, if it is there. -/
def Expr.classesReadByOption (schema : Schema) (frames : List Frame) :
    Option Expr → Except Error (List String)
  | none => .ok []
  | some e => e.classesRead schema frames

/-- The classes that a select list reads. -/
def SelectItem.classesRead (schema : Schema) (frames : List Frame) :
    List SelectItem → Except Error (List String)
  | [] => .ok []
  | ⟨expression, _⟩ :: rest => do
    pure ((← expression.classesRead schema frames)
      ++ (← SelectItem.classesRead schema frames rest))

/-- The classes that an order-by list reads. -/
def OrderItem.classesRead (schema : Schema) (frames : List Frame) :
    List OrderItem → Except Error (List String)
  | [] => .ok []
  | ⟨expression, _⟩ :: rest => do
    pure ((← expression.classesRead schema frames)
      ++ (← OrderItem.classesRead schema frames rest))

/-- The classes that a query reads. Its bare names belong to its first from item. -/
def Query.classesRead (schema : Schema) (frames : List Frame) :
    Query → Except Error (List String)
  | ⟨_, select, sources, condition, groupBy, having, orderBy⟩ => do
    let named ← schema.classesOfSources sources
    match sources with
    | [] => pure named
    | first :: _ =>
      let inner : List Frame := ⟨first.className, sources⟩ :: frames
      let selected ← SelectItem.classesRead schema inner select
      let filtered ← Expr.classesReadByOption schema inner condition
      let grouped ← Expr.classesReadByEach schema inner groupBy
      let kept ← Expr.classesReadByOption schema inner having
      let ordered ← OrderItem.classesRead schema inner orderBy
      pure (named ++ selected ++ filtered ++ grouped ++ kept ++ ordered)

end

theorem Expr.classesReadByOption_eq
    (schema : Schema)
    (frames : List Frame)
    (clause : Option Expr) :
    Expr.classesReadByOption schema frames clause =
      Expr.classesReadByEach schema frames clause.toList := by
  cases clause with
  | none => rfl
  | some e =>
    show e.classesRead schema frames = e.classesRead schema frames >>= fun read => .ok (read ++ [])
    cases e.classesRead schema frames with
    | error error => rfl
    | ok read => exact congrArg Except.ok read.append_nil.symm

theorem SelectItem.classesRead_eq
    (schema : Schema)
    (frames : List Frame)
    (items : List SelectItem) :
    SelectItem.classesRead schema frames items =
      Expr.classesReadByEach schema frames (items.map (·.expression)) := by
  induction items with
  | nil => rfl
  | cons item rest inductionHypothesis =>
    obtain ⟨expression, label⟩ := item
    rw [SelectItem.classesRead, inductionHypothesis, List.map_cons, Expr.classesReadByEach]

theorem OrderItem.classesRead_eq
    (schema : Schema)
    (frames : List Frame)
    (items : List OrderItem) :
    OrderItem.classesRead schema frames items =
      Expr.classesReadByEach schema frames (items.map (·.expression)) := by
  induction items with
  | nil => rfl
  | cons item rest inductionHypothesis =>
    obtain ⟨expression, ascending⟩ := item
    rw [OrderItem.classesRead, inductionHypothesis, List.map_cons, Expr.classesReadByEach]

namespace Schema

/-- Names in order, each once. -/
def sortedNames (names : List String) : List String :=
  names.eraseDups.mergeSort fun x y => Ord.compare x y != .gt

/-- The classes that an expression reads over objects of a root class. -/
def involvedClasses (schema : Schema) (root : String) (e : Expr) :
    Except Error (List String) := do
  pure (sortedNames (← e.classesRead schema [⟨root, []⟩]))

/-- The classes that a query reads. -/
def involvedClassesOfQuery (schema : Schema) (query : Query) : Except Error (List String) := do
  match query.rootClass? with
  | none => .error .emptyFrom
  | some root => pure (sortedNames (← query.classesRead schema [⟨root, []⟩]))

end Schema

end ObjectQuery
