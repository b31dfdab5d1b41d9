import ObjectQuery.Proofs.Expr.Readable

/-!
Contract: names that stand where a form looks for a word of its own.

Printing puts parentheses around every composite node. Behind an opening parenthesis `select` begins
a query and `not` a negation, so a name with one of these spellings is taken for the word when the
parenthesis of its node is all that stands in front of it.

Owns:
- `Expr.opening?`, the name that the text of a tree begins with;
- `Expr.exposed`, the parts of a node that stand where a form looks for a word;
- `Expr.Shelters`, by which no part of a node is taken for such a word, and `Expr.Sheltered` and
  `Query.Sheltered`, by which no part at any depth is.

Does not own: reading and printing.
-/

namespace ObjectQuery

namespace Expr

/-- The name that the text of a tree begins with, in lower case. -/
def opening? : Expr → Option String
  | .path p => p.segments.head?.map String.toLower
  | .count owner collection => (owner ++ [collection]).head?.map String.toLower
  | .contains owner collection _ => (owner ++ [collection]).head?.map String.toLower
  | .asterisk owner => owner.head?.map String.toLower
  | .classTag owner => owner.head?.map String.toLower
  | .call function _ => some function.toLower
  | _ => none

end Expr

/-- The expressions of the clauses of a query, with the word that is looked for in front of each. -/
def Query.exposed (q : Query) : List (String × Expr) :=
  (if q.distinct then [] else q.select.head?.toList.map fun item => ("distinct", item.expression))
    ++ q.clauses.map fun part => ("not", part)

namespace Expr

/-- The parts of a node in front of which a form looks for a word, with that word. The operand of a
sign, the right operand of arithmetic and of comparisons, and the candidates of a membership test are
not among them: no form looks for a word there. -/
def exposed : Expr → List (String × Expr)
  | .binary _ left _ | .relational _ left _ | .oneOf left _ | .nullTest left _ =>
    [("not", left), ("select", left)]
  | .and left right | .or left right => [("not", left), ("select", left), ("not", right)]
  | .not operand => [("not", operand)]
  | .call _ arguments => arguments.map fun argument => ("not", argument)
  | .contains _ _ element => [("not", element)]
  | .query q | .nonempty q => q.exposed
  | _ => []

/-- No part of the node is taken for a word that is looked for in front of it. -/
def Shelters (e : Expr) : Prop :=
  ∀ word part, (word, part) ∈ e.exposed → part.opening? ≠ some word

theorem shelters_iff {e : Expr} :
    e.Shelters ↔ ∀ exposure ∈ e.exposed, exposure.2.opening? ≠ some exposure.1 :=
  ⟨fun shelters exposure member => shelters exposure.1 exposure.2 member,
    fun each word part member => each (word, part) member⟩

instance (e : Expr) : Decidable e.Shelters :=
  decidable_of_iff _ shelters_iff.symm

/-- Neither the tree nor any part of it is taken for a word that is looked for in front of it. -/
def Sheltered (e : Expr) : Prop :=
  e.opening? ≠ some "not" ∧ e.Everywhere Shelters

end Expr

/-- No part of the query at any depth is taken for a word that is looked for in front of it. -/
def Query.Sheltered (q : Query) : Prop :=
  (Expr.query q).Everywhere Expr.Shelters

/-! ### Sheltered nodes by their parts -/

section

variable {left right operand element : Expr} {candidates arguments : List Expr} {q : Query}

/-- A sheltered query: its clauses are, and the first select item makes no query distinct. -/
theorem Query.sheltered_iff :
    q.Sheltered ↔
      (q.distinct = false → ∀ item ∈ q.select.head?, item.expression.opening? ≠ some "distinct") ∧
        (∀ item ∈ q.select, item.expression.Sheltered) ∧ (∀ e ∈ q.condition, e.Sheltered) ∧
        (∀ e ∈ q.groupBy, e.Sheltered) ∧ (∀ e ∈ q.having, e.Sheltered) ∧
        ∀ item ∈ q.orderBy, item.expression.Sheltered := by
  have byClause : q.Sheltered ↔
      (q.distinct = false → ∀ item ∈ q.select.head?, item.expression.opening? ≠ some "distinct") ∧
        ∀ part ∈ q.clauses, part.Sheltered := by
    rw [Query.Sheltered, Expr.everywhere_iff, Expr.shelters_iff]
    show (∀ exposure ∈ q.exposed, exposure.2.opening? ≠ some exposure.1) ∧
      (∀ part ∈ q.clauses, part.Everywhere Expr.Shelters) ↔ _
    simp only [Query.exposed, List.forall_mem_append, List.forall_mem_map, and_assoc]
    refine and_congr ?_ forall₂_and.symm
    cases q.distinct <;> simp
  rw [byClause]
  simp only [Query.clauses, List.forall_mem_append, List.forall_mem_map, Option.mem_toList,
    Option.mem_def, and_assoc]

namespace Expr

section

variable {e : Expr}

/-- A form looks for two words in front of the first of two parts. -/
theorem sheltered_iff_of_first
    (exposedParts : e.exposed = [("not", left), ("select", left)])
    (twoParts : e.parts = [left, right]) :
    e.Everywhere Shelters ↔
      (left.opening? ≠ some "not" ∧ left.Everywhere Shelters ∧ right.Everywhere Shelters) ∧
        left.opening? ≠ some "select" := by
  rw [everywhere_iff, shelters_iff, exposedParts, twoParts]
  simp only [List.forall_mem_cons]
  tauto

/-- A form looks for two words in front of the first of two parts, and for one in front of the
second. -/
theorem sheltered_iff_of_both
    (exposedParts : e.exposed = [("not", left), ("select", left), ("not", right)])
    (twoParts : e.parts = [left, right]) :
    e.Everywhere Shelters ↔
      ((left.opening? ≠ some "not" ∧ right.opening? ≠ some "not") ∧ left.Everywhere Shelters ∧
        right.Everywhere Shelters) ∧ left.opening? ≠ some "select" := by
  rw [everywhere_iff, shelters_iff, exposedParts, twoParts]
  simp only [List.forall_mem_cons]
  tauto

/-- A form looks for one word in front of the only part. -/
theorem sheltered_iff_of_only
    (exposedParts : e.exposed = [("not", operand)])
    (onePart : e.parts = [operand]) :
    e.Everywhere Shelters ↔ operand.Sheltered := by
  rw [everywhere_iff, shelters_iff, exposedParts, onePart, Sheltered]
  simp only [List.forall_mem_singleton]

end

theorem sheltered_binary_iff {op : ArithmeticOp} :
    (binary op left right).Everywhere Shelters ↔
      (left.opening? ≠ some "not" ∧ left.Everywhere Shelters ∧ right.Everywhere Shelters) ∧
        left.opening? ≠ some "select" :=
  sheltered_iff_of_first rfl rfl

theorem sheltered_relational_iff {op : RelationalOp} :
    (relational op left right).Everywhere Shelters ↔
      (left.opening? ≠ some "not" ∧ left.Everywhere Shelters ∧ right.Everywhere Shelters) ∧
        left.opening? ≠ some "select" :=
  sheltered_iff_of_first rfl rfl

theorem sheltered_and_iff :
    (and left right).Everywhere Shelters ↔
      ((left.opening? ≠ some "not" ∧ right.opening? ≠ some "not") ∧ left.Everywhere Shelters ∧
        right.Everywhere Shelters) ∧ left.opening? ≠ some "select" :=
  sheltered_iff_of_both rfl rfl

theorem sheltered_or_iff :
    (or left right).Everywhere Shelters ↔
      ((left.opening? ≠ some "not" ∧ right.opening? ≠ some "not") ∧ left.Everywhere Shelters ∧
        right.Everywhere Shelters) ∧ left.opening? ≠ some "select" :=
  sheltered_iff_of_both rfl rfl

theorem sheltered_nullTest_iff {negated : Bool} :
    (nullTest operand negated).Everywhere Shelters ↔
      operand.Sheltered ∧ operand.opening? ≠ some "select" := by
  rw [everywhere_iff, shelters_iff]
  show (∀ exposure ∈ [("not", operand), ("select", operand)], _) ∧
    (∀ part ∈ [operand], part.Everywhere Shelters) ↔ _
  simp only [List.forall_mem_cons, Sheltered]
  tauto

theorem sheltered_oneOf_iff :
    (oneOf operand candidates).Everywhere Shelters ↔
      (operand.Sheltered ∧ ∀ candidate ∈ candidates, candidate.Everywhere Shelters) ∧
        operand.opening? ≠ some "select" := by
  rw [everywhere_iff, shelters_iff, parts_oneOf]
  show (∀ exposure ∈ [("not", operand), ("select", operand)], _) ∧ _ ↔ _
  simp only [List.forall_mem_cons, Sheltered]
  tauto

theorem sheltered_not_iff : (not operand).Everywhere Shelters ↔ operand.Sheltered :=
  sheltered_iff_of_only rfl rfl

theorem sheltered_negate_iff :
    (negate operand).Everywhere Shelters ↔ operand.Everywhere Shelters := by
  rw [everywhere_iff, shelters_iff]
  show (∀ exposure ∈ [], _) ∧ (∀ part ∈ [operand], part.Everywhere Shelters) ↔ _
  simp only [List.forall_mem_singleton]
  exact and_iff_right (List.forall_mem_nil _)

theorem sheltered_contains_iff {owner : List String} {collection : String} :
    (contains owner collection element).Everywhere Shelters ↔ element.Sheltered :=
  sheltered_iff_of_only rfl parts_contains

theorem sheltered_call_iff {function : String} :
    (call function arguments).Everywhere Shelters ↔
      ∀ argument ∈ arguments, argument.Sheltered := by
  rw [everywhere_iff, shelters_iff, parts_call]
  show (∀ exposure ∈ arguments.map fun argument => ("not", argument), _) ∧ _ ↔ _
  simp only [List.forall_mem_map]
  exact forall₂_and.symm

theorem sheltered_nonempty_iff : (nonempty q).Everywhere Shelters ↔ q.Sheltered := by
  rw [Query.Sheltered, everywhere_iff (e := query q), everywhere_iff]
  exact Iff.rfl

theorem sheltered_of_leaf
    {e : Expr}
    (nothingExposed : e.exposed = [])
    (noParts : e.parts = []) :
    e.Everywhere Shelters := by
  refine everywhere_of_leaf (shelters_iff.mpr ?_) noParts
  rw [nothingExposed]
  exact List.forall_mem_nil _

end Expr

end

/-! ### Trees without such names -/

/-- The name is no word that a form looks for in front of an expression. -/
def IsLeading (name : String) : Prop :=
  name.toLower ∉ openingWords

theorem Expr.leadingNamesEach_eq (es : List Expr) :
    Expr.leadingNamesEach es = es.flatMap Expr.leadingNames := by
  induction es with
  | nil => rfl
  | cons e es inductionHypothesis =>
    rw [Expr.leadingNamesEach, inductionHypothesis, List.flatMap_cons]

theorem Expr.leadingNamesOption_eq (e : Option Expr) :
    Expr.leadingNamesOption e = e.toList.flatMap Expr.leadingNames := by
  cases e with
  | none => rfl
  | some e => simp [Expr.leadingNamesOption]

theorem SelectItem.leadingNamesEach_eq (items : List SelectItem) :
    SelectItem.leadingNamesEach items =
      (items.map (·.expression)).flatMap Expr.leadingNames := by
  induction items with
  | nil => rfl
  | cons item items inductionHypothesis =>
    obtain ⟨expression, label⟩ := item
    rw [SelectItem.leadingNamesEach, inductionHypothesis, List.map_cons, List.flatMap_cons]

theorem OrderItem.leadingNamesEach_eq (items : List OrderItem) :
    OrderItem.leadingNamesEach items =
      (items.map (·.expression)).flatMap Expr.leadingNames := by
  induction items with
  | nil => rfl
  | cons item items inductionHypothesis =>
    obtain ⟨expression, ascending⟩ := item
    rw [OrderItem.leadingNamesEach, inductionHypothesis, List.map_cons, List.flatMap_cons]

theorem Query.leadingNames_eq (q : Query) :
    q.leadingNames = q.clauses.flatMap Expr.leadingNames := by
  obtain ⟨distinct, select, sources, condition, groupBy, having, orderBy⟩ := q
  simp only [Query.leadingNames, Query.clauses, SelectItem.leadingNamesEach_eq,
    Expr.leadingNamesOption_eq, Expr.leadingNamesEach_eq, OrderItem.leadingNamesEach_eq,
    List.flatMap_append]

namespace Expr

variable {e part : Expr} {word name : String}

theorem mem_leadingNames_of_mem_parts
    (member : part ∈ e.parts)
    (leads : name ∈ part.leadingNames) :
    name ∈ e.leadingNames := by
  have among (parts : List Expr) (isPart : part ∈ parts) :
      name ∈ parts.flatMap leadingNames := List.mem_flatMap.mpr ⟨part, isPart, leads⟩
  cases e with
  | literal _ | raw _ | parameter _ _ | boolean _ | path _ | asterisk _ | classTag _ | count _ _ =>
    cases member
  | query q | nonempty q =>
    rw [leadingNames, Query.leadingNames_eq]
    exact among q.clauses member
  | binary _ left right | and left right | or left right | relational _ left right =>
    simpa [leadingNames] using among [left, right] member
  | negate operand | not operand | nullTest operand _ =>
    simpa [leadingNames] using among [operand] member
  | contains owner collection element =>
    rw [parts_contains] at member
    exact List.mem_append_right _ (List.mem_singleton.mp member ▸ leads)
  | call function arguments =>
    rw [parts_call] at member
    rw [leadingNames, leadingNamesEach_eq]
    exact List.mem_cons_of_mem function (among arguments member)
  | oneOf operand candidates =>
    rw [parts_oneOf] at member
    rw [leadingNames, leadingNamesEach_eq, ← List.flatMap_cons]
    exact among (operand :: candidates) member

theorem exists_mem_leadingNames_of_opening? (opens : e.opening? = some word) :
    ∃ name ∈ e.leadingNames, name.toLower = word := by
  have first (names : List String) (leads : names.head?.map String.toLower = some word) :
      ∃ name ∈ names.take 1, name.toLower = word := by
    obtain ⟨name, isFirst, lower⟩ := Option.map_eq_some_iff.mp leads
    obtain ⟨others, rfl⟩ := List.head?_eq_some_iff.mp isFirst
    exact ⟨name, List.mem_singleton.mpr rfl, lower⟩
  cases e with
  | path p => exact first p.segments opens
  | count owner collection => exact first (owner ++ [collection]) opens
  | asterisk owner | classTag owner => exact first owner opens
  | call function arguments => exact ⟨function, List.mem_cons_self .., Option.some.inj opens⟩
  | contains owner collection element =>
    obtain ⟨name, isFirst, lower⟩ := first (owner ++ [collection]) opens
    exact ⟨name, List.mem_append_left _ isFirst, lower⟩
  | _ => exact absurd opens (by simp [opening?])

theorem opening?_ne_of_leadingNames
    (leading : ∀ name ∈ e.leadingNames, IsLeading name)
    (among : word ∈ openingWords) :
    e.opening? ≠ some word := by
  intro opens
  obtain ⟨name, leads, rfl⟩ := exists_mem_leadingNames_of_opening? opens
  exact leading name leads among

/-- Only parts are exposed, and only to the words that are looked for in front of expressions. -/
theorem mem_of_mem_exposed (member : (word, part) ∈ e.exposed) :
    word ∈ openingWords ∧ part ∈ e.parts := by
  have ofQuery (q : Query) (isExposed : (word, part) ∈ q.exposed) :
      word ∈ openingWords ∧ part ∈ q.clauses := by
    rcases List.mem_append.mp isExposed with isFirst | isClause
    · split at isFirst
      · cases isFirst
      · obtain ⟨item, isItem, equal⟩ := List.mem_map.mp isFirst
        obtain ⟨rfl, rfl⟩ := Prod.mk.inj equal
        have isSelected := List.mem_of_mem_head? (Option.mem_toList.mp isItem)
        exact ⟨by decide, by simp [Query.clauses, List.mem_map_of_mem isSelected]⟩
    · obtain ⟨clause, among, equal⟩ := List.mem_map.mp isClause
      obtain ⟨rfl, rfl⟩ := Prod.mk.inj equal
      exact ⟨by decide, among⟩
  cases e with
  | literal _ | raw _ | parameter _ _ | boolean _ | path _ | asterisk _ | classTag _ | count _ _
  | negate _ =>
    cases member
  | query q | nonempty q => exact ofQuery q member
  | contains owner collection element =>
    rw [parts_contains]
    obtain ⟨rfl, rfl⟩ := Prod.mk.inj (List.mem_singleton.mp member)
    simp [openingWords]
  | call function arguments =>
    rw [parts_call]
    obtain ⟨argument, isArgument, equal⟩ := List.mem_map.mp member
    obtain ⟨rfl, rfl⟩ := Prod.mk.inj equal
    exact ⟨by decide, isArgument⟩
  | binary _ _ _ | and _ _ | or _ _ | relational _ _ _ | not _ | nullTest _ _ | oneOf _ _ =>
    simp only [exposed, List.mem_cons, Prod.mk.injEq, List.not_mem_nil, or_false] at member
    grind [parts, operands, clauses, openingWords]

/-- A tree in which no such name stands in front of anything is sheltered. -/
theorem sheltered_of_leadingNames
    (leading : ∀ name ∈ e.leadingNames, IsLeading name) :
    e.Sheltered := by
  refine ⟨opening?_ne_of_leadingNames leading (by decide), ?_⟩
  induction e using parts_induction with
  | step e inductionHypothesis =>
    have ofPart (part : Expr) (member : part ∈ e.parts) :
        ∀ name ∈ part.leadingNames, IsLeading name :=
      fun name leads => leading name (mem_leadingNames_of_mem_parts member leads)
    refine everywhere_iff.mpr ⟨?_, fun part member => ?_⟩
    · intro word part isExposed
      obtain ⟨among, member⟩ := mem_of_mem_exposed isExposed
      exact opening?_ne_of_leadingNames (ofPart part member) among
    · exact inductionHypothesis part member (ofPart part member)

end Expr

end ObjectQuery
