import ObjectQuery.Proofs.Expr.Literal
import ObjectQuery.Proofs.Expr.Parts
import ObjectQuery.Proofs.Expr.RawText

/-!
Contract: the trees that have a text.

Owns:
- `IsChain`, the rows of names that are read as one path;
- `Expr.Readable` and `Query.Readable`, the trees whose literals, names and raw texts are spelled as
  the language asks;
- `Expr.leadingNames` and `Query.leadingNames`, the first name of each path, call, collection test
  and mark.

Does not own: reading and printing.
-/

namespace ObjectQuery

/-- A name of the language in lower case. -/
def IsKeyword (words : List String) (name : String) : Prop :=
  name.toLower ∈ words

/-- The words that a path does not begin with. -/
def pathWords : List String := ["true", "false", "null", "soodaclass"]

/-- The words that have a meaning of their own behind a dot. -/
def memberWords : List String := ["count", "soodaclass"]

/-- The words that a call does not begin with. -/
def callWords : List String := ["true", "false", "null", "exists", "rawquery"]

/-- A name that may stand behind a dot. -/
def IsMember (name : String) : Prop :=
  IsName name.toList ∧ ¬ IsKeyword memberWords name

/-- A row of names that is read as one path. -/
def IsChain : List String → Prop
  | [] => False
  | first :: others =>
    IsName first.toList ∧ ¬ IsKeyword pathWords first ∧ ∀ name ∈ others, IsMember name

/-- A name that may stand in front of a list of arguments. -/
def IsFunction (name : String) : Prop :=
  IsName name.toList ∧ ¬ IsKeyword callWords name

/-- There is no label, or it is a name. -/
def LabelReadable (label : Option String) : Prop :=
  ∀ name ∈ label, IsName name.toList

/-- A class of the from list with the names that stand for it. -/
def FromItem.Readable (item : FromItem) : Prop :=
  IsName item.className.toList ∧ LabelReadable item.label

mutual

/-- A tree whose parts are spelled as the language asks. -/
def Expr.Readable : Expr → Prop
  | .literal value => value.Readable
  | .parameter index modifier => index < 2 ^ 64 ∧ LabelReadable modifier
  | .path p => IsChain p.segments
  | .binary _ left right => left.Readable ∧ right.Readable
  | .negate operand => operand.Readable
  | .call function arguments => IsFunction function ∧ Expr.ReadableEach arguments
  | .raw text => Grammar.RawReadable text.toList
  | .query q => q.Readable
  | .and left right => left.Readable ∧ right.Readable
  | .or left right => left.Readable ∧ right.Readable
  | .not operand => operand.Readable
  | .relational _ left right => left.Readable ∧ right.Readable
  | .oneOf operand candidates => operand.Readable ∧ Expr.ReadableEach candidates
  | .nullTest operand _ => operand.Readable
  | .boolean _ => True
  | .nonempty q => q.Readable
  | .count owner collection => IsChain (owner ++ [collection])
  | .contains owner collection element => IsChain (owner ++ [collection]) ∧ element.Readable
  | .asterisk owner => owner = [] ∨ IsChain owner
  | .classTag owner => owner = [] ∨ IsChain owner

/-- Every tree of a list is readable. -/
def Expr.ReadableEach : List Expr → Prop
  | [] => True
  | e :: rest => e.Readable ∧ Expr.ReadableEach rest

/-- There is no tree, or it is readable. -/
def Expr.ReadableOption : Option Expr → Prop
  | none => True
  | some e => e.Readable

/-- Every select item is readable. -/
def SelectItem.ReadableEach : List SelectItem → Prop
  | [] => True
  | ⟨expression, label⟩ :: rest =>
    expression.Readable ∧ LabelReadable label ∧ SelectItem.ReadableEach rest

/-- Every order-by item is readable. -/
def OrderItem.ReadableEach : List OrderItem → Prop
  | [] => True
  | ⟨expression, _⟩ :: rest => expression.Readable ∧ OrderItem.ReadableEach rest

/-- A query that selects something from somewhere, with readable parts. -/
def Query.Readable : Query → Prop
  | ⟨_, select, sources, condition, groupBy, having, orderBy⟩ =>
    (select ≠ [] ∧ SelectItem.ReadableEach select) ∧
      (sources ≠ [] ∧ ∀ item ∈ sources, item.Readable) ∧
      Expr.ReadableOption condition ∧ Expr.ReadableEach groupBy ∧
      Expr.ReadableOption having ∧ OrderItem.ReadableEach orderBy

end

mutual

/-- The first names of the paths, calls, collection tests and marks of a tree. -/
def Expr.leadingNames : Expr → List String
  | .path p => p.segments.take 1
  | .count owner collection => (owner ++ [collection]).take 1
  | .contains owner collection element =>
    (owner ++ [collection]).take 1 ++ element.leadingNames
  | .asterisk owner => owner.take 1
  | .classTag owner => owner.take 1
  | .call function arguments => function :: Expr.leadingNamesEach arguments
  | .binary _ left right => left.leadingNames ++ right.leadingNames
  | .and left right => left.leadingNames ++ right.leadingNames
  | .or left right => left.leadingNames ++ right.leadingNames
  | .relational _ left right => left.leadingNames ++ right.leadingNames
  | .negate operand => operand.leadingNames
  | .not operand => operand.leadingNames
  | .nullTest operand _ => operand.leadingNames
  | .oneOf operand candidates => operand.leadingNames ++ Expr.leadingNamesEach candidates
  | .query q => q.leadingNames
  | .nonempty q => q.leadingNames
  | .literal _ => []
  | .parameter .. => []
  | .raw _ => []
  | .boolean _ => []

/-- The first names of several trees. -/
def Expr.leadingNamesEach : List Expr → List String
  | [] => []
  | e :: rest => e.leadingNames ++ Expr.leadingNamesEach rest

/-- The first names of a tree that may be missing. -/
def Expr.leadingNamesOption : Option Expr → List String
  | none => []
  | some e => e.leadingNames

/-- The first names of the select items. -/
def SelectItem.leadingNamesEach : List SelectItem → List String
  | [] => []
  | ⟨expression, _⟩ :: rest => expression.leadingNames ++ SelectItem.leadingNamesEach rest

/-- The first names of the order-by items. -/
def OrderItem.leadingNamesEach : List OrderItem → List String
  | [] => []
  | ⟨expression, _⟩ :: rest => expression.leadingNames ++ OrderItem.leadingNamesEach rest

/-- The first names of a query. -/
def Query.leadingNames : Query → List String
  | ⟨_, select, _, condition, groupBy, having, orderBy⟩ =>
    SelectItem.leadingNamesEach select ++ Expr.leadingNamesOption condition
      ++ Expr.leadingNamesEach groupBy ++ Expr.leadingNamesOption having
      ++ OrderItem.leadingNamesEach orderBy

end

/-- The words that a form of the language looks for in front of an expression. -/
def openingWords : List String := ["not", "select", "distinct"]

theorem Expr.readableEach_iff {es : List Expr} :
    Expr.ReadableEach es ↔ ∀ e ∈ es, e.Readable := by
  induction es with
  | nil => simp [Expr.ReadableEach]
  | cons e es inductionHypothesis => simp [Expr.ReadableEach, inductionHypothesis]

theorem Expr.readableOption_iff {e : Option Expr} :
    Expr.ReadableOption e ↔ ∀ x ∈ e, x.Readable := by
  cases e with
  | none => simp [Expr.ReadableOption]
  | some e => simp [Expr.ReadableOption]

theorem SelectItem.readableEach_iff {items : List SelectItem} :
    SelectItem.ReadableEach items ↔
      ∀ item ∈ items, item.expression.Readable ∧ LabelReadable item.label := by
  induction items with
  | nil => simp [SelectItem.ReadableEach]
  | cons item items inductionHypothesis =>
    obtain ⟨expression, label⟩ := item
    simp [SelectItem.ReadableEach, inductionHypothesis, and_assoc]

theorem OrderItem.readableEach_iff {items : List OrderItem} :
    OrderItem.ReadableEach items ↔ ∀ item ∈ items, item.expression.Readable := by
  induction items with
  | nil => simp [OrderItem.ReadableEach]
  | cons item items inductionHypothesis =>
    obtain ⟨expression, ascending⟩ := item
    simp [OrderItem.ReadableEach, inductionHypothesis]

theorem isChain_append
    {names : List String}
    {name : String}
    (chain : IsChain names)
    (member : IsMember name) :
    IsChain (names ++ [name]) := by
  cases names with
  | nil => exact absurd chain (by simp [IsChain])
  | cons first others =>
    obtain ⟨isName, notKeyword, members⟩ := chain
    refine ⟨isName, notKeyword, ?_⟩
    intro other among
    rcases List.mem_append.mp among with inner | last
    · exact members other inner
    · obtain rfl : other = name := by simpa using last
      exact member

theorem readable_selectAll
    {className : String}
    {condition : Option Expr}
    (isName : IsName className.toList)
    (readable : ∀ e ∈ condition, e.Readable) :
    (Query.selectAll className condition).Readable := by
  refine ⟨⟨by simp, .inl rfl, by simp [LabelReadable], trivial⟩, ⟨by simp, ?_⟩,
    Expr.readableOption_iff.mpr readable, trivial, trivial, trivial⟩
  intro item among
  obtain rfl := List.mem_singleton.mp among
  exact ⟨isName, by simp [LabelReadable]⟩

/-! ### Parts of readable trees -/

theorem Query.readable_of_mem_clauses
    {q : Query}
    {e : Expr}
    (readable : q.Readable)
    (member : e ∈ q.clauses) :
    e.Readable := by
  obtain ⟨distinct, select, sources, condition, groupBy, having, orderBy⟩ := q
  obtain ⟨⟨-, ofSelect⟩, -, ofCondition, ofGroups, ofHaving, ofOrder⟩ := readable
  simp only [clauses, List.mem_append, List.mem_map, Option.mem_toList] at member
  rcases member with (((⟨item, isItem, rfl⟩ | isFilter) | isGroup) | isKept) | ⟨item, isItem, rfl⟩
  · exact (SelectItem.readableEach_iff.mp ofSelect item isItem).1
  · exact Expr.readableOption_iff.mp ofCondition e isFilter
  · exact Expr.readableEach_iff.mp ofGroups e isGroup
  · exact Expr.readableOption_iff.mp ofHaving e isKept
  · exact OrderItem.readableEach_iff.mp ofOrder item isItem

theorem Expr.readable_of_mem_parts
    {e part : Expr}
    (readable : e.Readable)
    (member : part ∈ e.parts) :
    part.Readable := by
  cases e with
  | literal _ | raw _ | parameter _ _ | boolean _ | path _ | asterisk _ | classTag _ | count _ _ =>
    cases member
  | query q | nonempty q => exact Query.readable_of_mem_clauses readable member
  | binary _ left right | and left right | or left right | relational _ left right =>
    obtain ⟨ofLeft, ofRight⟩ := readable
    rcases List.mem_cons.mp member with rfl | isRight
    · exact ofLeft
    · exact List.mem_singleton.mp isRight ▸ ofRight
  | negate operand | not operand | nullTest operand _ =>
    exact List.mem_singleton.mp member ▸ readable
  | contains owner collection element =>
    rw [parts_contains] at member
    exact List.mem_singleton.mp member ▸ readable.2
  | call function arguments =>
    rw [parts_call] at member
    exact Expr.readableEach_iff.mp readable.2 part member
  | oneOf operand candidates =>
    obtain ⟨ofOperand, ofCandidates⟩ := readable
    rw [parts_oneOf] at member
    rcases List.mem_cons.mp member with rfl | isCandidate
    · exact ofOperand
    · exact Expr.readableEach_iff.mp ofCandidates part isCandidate

/-- In a readable tree everything is readable. -/
theorem Expr.everywhere_readable {e : Expr} (readable : e.Readable) : e.Everywhere Readable := by
  induction e using parts_induction with
  | step e each =>
    exact everywhere_iff.mpr
      ⟨readable, fun part member => each part member (readable_of_mem_parts readable member)⟩

end ObjectQuery
