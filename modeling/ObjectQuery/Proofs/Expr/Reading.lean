import ObjectQuery.Proofs.Expr.Readable
import ObjectQuery.Proofs.Expr.Steps

/-!
Contract: reading yields readable trees.

What a form leaves is an end of its tokens. Its tree is readable unless an opening parenthesis comes
next: `count` and `soodaclass` in front of one are taken for names, and no form goes on there.

Owns:
- `Yields`, and the laws by which rows, chains and clauses pass it on;
- `disjunction_yields` and `select_yields`, by induction on the budget of all forms at once;
- `readable_of_parseExpression` and `readable_of_parseQuery`.

Does not own: printing.
-/

namespace ObjectQuery

namespace Grammar

open Token

variable {source : List Char} {α : Type} {tokens rest : List Token} {token : Token}

/-- No opening parenthesis comes next. -/
def Unopened (tokens : List Token) : Prop :=
  startsWith .leftParen tokens = false

/-- The form leaves an end of its tokens and, where no parenthesis opens behind it, yields good
results. -/
def Yields
    (source : List Char)
    (good : α → Prop)
    (form : List Token → Except Stop (α × List Token)) : Prop :=
  ∀ tokens result rest, Located source tokens → form tokens = .ok (result, rest) →
    rest <:+ tokens ∧ (Unopened rest → good result)

theorem unopened_cons (other : token.kind ≠ .leftParen) : Unopened (token :: rest) := by
  simpa [Unopened, startsWith] using other

theorem unopened_of_isWord
    {word : String}
    (isWord : token.isWord word = true) :
    Unopened (token :: rest) :=
  unopened_cons (by rw [kind_of_isWord isWord]; decide)

/-! ### Names -/

theorem isName_of_located
    (located : Located source (token :: tokens))
    (word : token.kind = .word) :
    IsName token.text.toList := by
  have spelled := located.spelled
  rwa [word] at spelled

theorem toLower_ne_of_isWord_eq_false
    {word : String}
    (isName : token.kind = .word)
    (other : token.isWord word = false) :
    token.text.toLower ≠ word := by
  intro same
  simp [isWord, isName, lower, same] at other

theorem identifier_yields :
    Yields source (fun name => IsName name.toList) identifier := by
  intro tokens name rest located read
  obtain ⟨token, rfl, word, rfl⟩ := identifier_eq_ok.mp read
  exact ⟨List.suffix_cons .., fun _ => isName_of_located located word⟩

/-! ### Rows and clauses -/

section Rows

variable {good : α → Prop} {item : List Token → Except Stop (α × List Token)}

theorem commaSeparated_yields
    (each : Yields source good item)
    (budget : Nat) :
    Yields source (fun items => items ≠ [] ∧ ∀ x ∈ items, good x)
      (commaSeparated item budget) := by
  induction budget with
  | zero =>
    intro tokens result rest located read
    simp [commaSeparated] at read
  | succ budget inductionHypothesis =>
    intro tokens result rest located read
    rw [commaSeparated, bind_eq_ok] at read
    obtain ⟨⟨first, behind⟩, readFirst, read⟩ := read
    obtain ⟨suffix, firstGood⟩ := each _ _ _ located readFirst
    cases behind with
    | nil =>
      obtain ⟨rfl, rfl⟩ : [first] = result ∧ [] = rest := by simpa using read
      exact ⟨suffix, fun unopened => by simpa using firstGood unopened⟩
    | cons comma after =>
      simp only at read
      split at read
      · rename_i isComma
        rw [bind_eq_ok] at read
        obtain ⟨⟨others, left⟩, readOthers, read⟩ := read
        obtain ⟨rfl, rfl⟩ : first :: others = result ∧ left = rest := by simpa using read
        have locatedAfter := (located.of_suffix suffix).tail
        obtain ⟨suffixOthers, othersGood⟩ := inductionHypothesis _ _ _ locatedAfter readOthers
        refine ⟨(suffixOthers.trans (List.suffix_cons ..)).trans suffix, ?_⟩
        intro unopened
        have firstIsGood := firstGood (unopened_cons (by rw [isComma]; decide))
        have othersAreGood := (othersGood unopened).2
        refine ⟨List.cons_ne_nil _ _, ?_⟩
        intro x member
        rcases List.mem_cons.mp member with rfl | later
        · exact firstIsGood
        · exact othersAreGood x later
      · obtain ⟨rfl, rfl⟩ : [first] = result ∧ comma :: after = rest := by simpa using read
        exact ⟨suffix, fun unopened => by simpa using firstGood unopened⟩

theorem parenthesized_yields
    (each : Yields source good item)
    (budget : Nat) :
    Yields source (fun items => ∀ x ∈ items, good x) (parenthesized item budget) := by
  intro tokens result rest located read
  rw [parenthesized, bind_eq_ok] at read
  obtain ⟨⟨opening, inside⟩, opens, read⟩ := read
  obtain ⟨rfl, -⟩ := expect_eq_ok.mp opens
  simp only at read
  split at read
  · rw [bind_eq_ok] at read
    obtain ⟨⟨closing, left⟩, closes, read⟩ := read
    obtain ⟨rfl, -⟩ := expect_eq_ok.mp closes
    obtain ⟨rfl, rfl⟩ : [] = result ∧ left = rest := by simpa using read
    exact ⟨(List.suffix_cons ..).trans (List.suffix_cons ..), by simp⟩
  · rw [bind_eq_ok] at read
    obtain ⟨⟨items, behind⟩, readItems, read⟩ := read
    obtain ⟨suffix, itemsGood⟩ := commaSeparated_yields each budget _ _ _ located.tail readItems
    rw [bind_eq_ok] at read
    obtain ⟨⟨closing, left⟩, closes, read⟩ := read
    obtain ⟨rfl, kind⟩ := expect_eq_ok.mp closes
    obtain ⟨rfl, rfl⟩ : items = result ∧ left = rest := by simpa using read
    refine ⟨((List.suffix_cons ..).trans suffix).trans (List.suffix_cons ..), fun _ => ?_⟩
    exact (itemsGood (unopened_cons (by rw [kind]; decide))).2

/-- A clause behind a word; where it is missing, an opening parenthesis stays next. -/
theorem optional_yields
    {word : String}
    {result : Option α}
    (content : Yields source good item)
    (located : Located source tokens)
    (read : optional word item tokens = .ok (result, rest)) :
    rest <:+ tokens ∧ (Unopened rest → Unopened tokens ∧ ∀ x ∈ result, good x) := by
  unfold optional at read
  split at read
  · rename_i behind skipped
    obtain ⟨token, rfl, isWord⟩ := skipWord_eq_true.mp skipped
    rw [bind_eq_ok] at read
    obtain ⟨⟨found, left⟩, readContent, read⟩ := read
    obtain ⟨rfl, rfl⟩ : some found = result ∧ left = rest := by simpa using read
    obtain ⟨suffix, foundGood⟩ := content _ _ _ located.tail readContent
    refine ⟨suffix.trans (List.suffix_cons ..), fun unopened => ?_⟩
    exact ⟨unopened_of_isWord isWord, by simpa using foundGood unopened⟩
  · rename_i behind skipped
    obtain ⟨rfl, -⟩ := skipWord_eq_false.mp skipped
    obtain ⟨rfl, rfl⟩ : none = result ∧ behind = rest := by simpa using read
    exact ⟨List.suffix_rfl, fun unopened => ⟨unopened, by simp⟩⟩

/-- A list behind a word and `by`; where it is missing, an opening parenthesis stays next. -/
theorem optionalList_yields
    {word : String}
    {items : List Token → Except Stop (List α × List Token)}
    {result : List α}
    (content : Yields source (fun items => items ≠ [] ∧ ∀ x ∈ items, good x) items)
    (located : Located source tokens)
    (read : optionalList word items tokens = .ok (result, rest)) :
    rest <:+ tokens ∧ (Unopened rest → Unopened tokens ∧ ∀ x ∈ result, good x) := by
  unfold optionalList at read
  split at read
  · rename_i behind skipped
    obtain ⟨token, rfl, isWord⟩ := skipWord_eq_true.mp skipped
    rw [bind_eq_ok] at read
    obtain ⟨⟨byToken, left⟩, readBy, read⟩ := read
    obtain ⟨rfl, -⟩ := expectWord_eq_ok.mp readBy
    obtain ⟨suffix, itemsGood⟩ := content _ _ _ located.tail.tail read
    refine ⟨(suffix.trans (List.suffix_cons ..)).trans (List.suffix_cons ..), fun unopened => ?_⟩
    exact ⟨unopened_of_isWord isWord, (itemsGood unopened).2⟩
  · rename_i behind skipped
    obtain ⟨rfl, -⟩ := skipWord_eq_false.mp skipped
    obtain ⟨rfl, rfl⟩ : [] = result ∧ behind = rest := by simpa using read
    exact ⟨List.suffix_rfl, fun unopened => ⟨unopened, by simp⟩⟩

end Rows

/-! ### Operators of one level -/

section Operators

variable {operator? : Token → Option (Expr → Expr → Expr)}
variable {operand : List Token → Except Stop (Expr × List Token)}

/-- The operator joins readable trees to readable trees, and is no opening parenthesis. -/
def Joins (operator? : Token → Option (Expr → Expr → Expr)) : Prop :=
  ∀ token join, operator? token = some join →
    token.kind ≠ .leftParen ∧
      ∀ left right : Expr, left.Readable → right.Readable → (join left right).Readable

theorem chain_yields
    (joins : Joins operator?)
    (each : Yields source Expr.Readable operand)
    {budget : Nat}
    {left result : Expr}
    (located : Located source tokens)
    (leftReadable : Unopened tokens → left.Readable)
    (read : chain operator? operand budget left tokens = .ok (result, rest)) :
    rest <:+ tokens ∧ (Unopened rest → result.Readable) := by
  induction budget generalizing left tokens with
  | zero => simp [chain] at read
  | succ budget inductionHypothesis =>
    cases tokens with
    | nil =>
      obtain ⟨rfl, rfl⟩ : left = result ∧ [] = rest := by simpa [chain] using read
      exact ⟨List.suffix_rfl, leftReadable⟩
    | cons token tokens =>
      cases operator : operator? token with
      | none =>
        obtain ⟨rfl, rfl⟩ : left = result ∧ token :: tokens = rest := by
          simpa [chain, operator] using read
        exact ⟨List.suffix_rfl, leftReadable⟩
      | some join =>
        simp only [chain, operator] at read
        rw [bind_eq_ok] at read
        obtain ⟨⟨right, behind⟩, readRight, read⟩ := read
        obtain ⟨notOpen, keeps⟩ := joins token join operator
        obtain ⟨suffix, rightReadable⟩ := each _ _ _ located.tail readRight
        have joinedReadable (unopened : Unopened behind) : (join left right).Readable :=
          keeps left right (leftReadable (unopened_cons notOpen)) (rightReadable unopened)
        obtain ⟨further, resultReadable⟩ :=
          inductionHypothesis (located.tail.of_suffix suffix) joinedReadable read
        exact ⟨(further.trans suffix).trans (List.suffix_cons ..), resultReadable⟩

theorem joined_yields
    (joins : Joins operator?)
    (each : Yields source Expr.Readable operand)
    (budget : Nat) :
    Yields source Expr.Readable (joined operator? operand budget) := by
  intro tokens result rest located read
  rw [joined, bind_eq_ok] at read
  obtain ⟨⟨left, behind⟩, readLeft, read⟩ := read
  obtain ⟨suffix, leftReadable⟩ := each _ _ _ located readLeft
  obtain ⟨further, resultReadable⟩ :=
    chain_yields joins each (located.of_suffix suffix) leftReadable read
  exact ⟨further.trans suffix, resultReadable⟩

theorem orOperator?_joins : Joins orOperator? := by
  intro token join operator
  obtain ⟨rfl, -⟩ := orOperator?_cases operator
  exact ⟨(orOperator?_unbracketed _ _ operator).1,
    fun _ _ leftReadable rightReadable => ⟨leftReadable, rightReadable⟩⟩

theorem andOperator?_joins : Joins andOperator? := by
  intro token join operator
  obtain ⟨rfl, -⟩ := andOperator?_cases operator
  exact ⟨(andOperator?_unbracketed _ _ operator).1,
    fun _ _ leftReadable rightReadable => ⟨leftReadable, rightReadable⟩⟩

theorem sumOperator?_joins : Joins sumOperator? := by
  intro token join operator
  obtain ⟨⟨_, rfl⟩, -⟩ := sumOperator?_cases operator
  exact ⟨(sumOperator?_unbracketed _ _ operator).1,
    fun _ _ leftReadable rightReadable => ⟨leftReadable, rightReadable⟩⟩

theorem productOperator?_joins : Joins productOperator? := by
  intro token join operator
  obtain ⟨⟨_, rfl⟩, -⟩ := productOperator?_cases operator
  exact ⟨(productOperator?_unbracketed _ _ operator).1,
    fun _ _ leftReadable rightReadable => ⟨leftReadable, rightReadable⟩⟩

end Operators

/-! ### Literals and parameters -/

theorem number_readable
    {e : Expr}
    (located : Located source (token :: tokens))
    (kind : token.kind = .number)
    (read : number token tokens = .ok (e, rest)) :
    rest = tokens ∧ e.Readable := by
  have spelled := located.spelled
  rw [kind] at spelled
  unfold number at read
  split at read
  · rename_i value found
    obtain ⟨rfl, rfl⟩ := Prod.mk.inj (Except.ok.inj read)
    exact ⟨rfl, readable_of_numberValue? spelled found⟩
  · simp at read

theorem string_readable
    {e : Expr}
    (read : string token tokens = .ok (e, rest)) :
    rest = tokens ∧ e.Readable := by
  unfold string at read
  split at read
  · obtain ⟨rfl, rfl⟩ := Prod.mk.inj (Except.ok.inj read)
    exact ⟨rfl, trivial⟩
  · simp at read

theorem parameter_yields : Yields source Expr.Readable parameter := by
  intro tokens result rest located read
  rw [parameter, bind_eq_ok] at read
  obtain ⟨⟨indexToken, behind⟩, readIndex, read⟩ := read
  obtain ⟨rfl, -⟩ := expect_eq_ok.mp readIndex
  simp only at read
  split at read
  · simp at read
  · rename_i index found
    have small := lt_of_parameterIndex? found
    split at read
    · rw [bind_eq_ok] at read
      obtain ⟨⟨colon, afterColon⟩, readColon, read⟩ := read
      obtain ⟨rfl, -⟩ := expect_eq_ok.mp readColon
      rw [bind_eq_ok] at read
      obtain ⟨⟨modifier, afterName⟩, readName, read⟩ := read
      obtain ⟨nameToken, rfl, word, rfl⟩ := identifier_eq_ok.mp readName
      have isName := isName_of_located located.tail.tail word
      rw [bind_eq_ok] at read
      obtain ⟨⟨closing, left⟩, readClosing, read⟩ := read
      obtain ⟨rfl, -⟩ := expect_eq_ok.mp readClosing
      obtain ⟨rfl, rfl⟩ : Expr.parameter index (some nameToken.text) = result ∧ left = rest := by
        simpa using read
      refine ⟨⟨[indexToken, colon, nameToken, closing], rfl⟩, fun _ => ⟨small, ?_⟩⟩
      intro name same
      obtain rfl : nameToken.text = name := by simpa using same
      exact isName
    · rw [bind_eq_ok] at read
      obtain ⟨⟨closing, left⟩, readClosing, read⟩ := read
      obtain ⟨rfl, -⟩ := expect_eq_ok.mp readClosing
      obtain ⟨rfl, rfl⟩ : Expr.parameter index none = result ∧ left = rest := by
        simpa using read
      exact ⟨⟨[indexToken, closing], rfl⟩, fun _ => ⟨small, by simp [LabelReadable]⟩⟩

theorem unopened_of_comparison?
    {op : RelationalOp}
    (operator : comparison? token = some op) :
    Unopened (token :: rest) := by
  apply unopened_cons
  intro kind
  have notWord : token.isWord "like" = false := by simp [isWord, kind]
  simp [comparison?, notWord, kind] at operator

/-! ### From lists -/

theorem fromItem_yields : Yields source FromItem.Readable fromItem := by
  intro tokens result rest located read
  rw [fromItem, bind_eq_ok] at read
  obtain ⟨⟨className, behind⟩, readName, read⟩ := read
  obtain ⟨nameToken, rfl, word, rfl⟩ := identifier_eq_ok.mp readName
  have isName := isName_of_located located word
  simp only at read
  split at read
  · rename_i afterAs skipped
    obtain ⟨asToken, rfl, -⟩ := skipWord_eq_true.mp skipped
    rw [bind_eq_ok] at read
    obtain ⟨⟨label, left⟩, readLabel, read⟩ := read
    obtain ⟨labelToken, rfl, labelWord, rfl⟩ := identifier_eq_ok.mp readLabel
    have labelIsName := isName_of_located located.tail.tail labelWord
    obtain ⟨rfl, rfl⟩ : (⟨nameToken.text, some labelToken.text⟩ : FromItem) = result ∧
        left = rest := by simpa using read
    refine ⟨⟨[nameToken, asToken, labelToken], rfl⟩, fun _ => ⟨isName, ?_⟩⟩
    intro name same
    obtain rfl : labelToken.text = name := by simpa using same
    exact labelIsName
  · rename_i skipped
    obtain ⟨rfl, -⟩ := skipWord_eq_false.mp skipped
    obtain ⟨rfl, rfl⟩ : (⟨nameToken.text, none⟩ : FromItem) = result ∧ [] = rest := by
      simpa using read
    exact ⟨List.suffix_cons .., fun _ => ⟨isName, by simp [LabelReadable]⟩⟩
  · rename_i next after skipped
    obtain ⟨rfl, -⟩ := skipWord_eq_false.mp skipped
    split at read
    · rename_i labels
      have labelIsName := isName_of_located located.tail labels.1
      obtain ⟨rfl, rfl⟩ : (⟨nameToken.text, some next.text⟩ : FromItem) = result ∧
          after = rest := by simpa using read
      refine ⟨⟨[nameToken, next], rfl⟩, fun _ => ⟨isName, ?_⟩⟩
      intro name same
      obtain rfl : next.text = name := by simpa using same
      exact labelIsName
    · obtain ⟨rfl, rfl⟩ : (⟨nameToken.text, none⟩ : FromItem) = result ∧ next :: after = rest := by
        simpa using read
      exact ⟨List.suffix_cons .., fun _ => ⟨isName, by simp [LabelReadable]⟩⟩

theorem unopened_of_direction
    (unopened : Unopened (direction tokens).2) :
    Unopened tokens := by
  unfold direction at unopened
  split at unopened
  · rename_i behind skipped
    obtain ⟨token, rfl, isWord⟩ := skipWord_eq_true.mp skipped
    exact unopened_of_isWord isWord
  · rename_i behind skipped
    obtain ⟨rfl, -⟩ := skipWord_eq_false.mp skipped
    cases ascending : startsWithWord "asc" behind with
    | true =>
      obtain ⟨token, left, rfl, isWord⟩ := startsWithWord_eq_true.mp ascending
      exact unopened_of_isWord isWord
    | false => rwa [skipWord_eq_false.mpr ⟨rfl, ascending⟩] at unopened

/-! ### All forms -/

mutual

theorem disjunction_yields :
    ∀ budget, Yields source Expr.Readable (disjunction source budget)
  | 0 => by
    intro tokens result rest located read
    simp [disjunction] at read
  | budget + 1 => by
    intro tokens result rest located read
    rw [disjunction] at read
    exact joined_yields orOperator?_joins (conjunction_yields budget) budget _ _ _ located read

theorem conjunction_yields :
    ∀ budget, Yields source Expr.Readable (conjunction source budget)
  | 0 => by
    intro tokens result rest located read
    simp [conjunction] at read
  | budget + 1 => by
    intro tokens result rest located read
    rw [conjunction] at read
    exact joined_yields andOperator?_joins (negation_yields budget) budget _ _ _ located read

theorem negation_yields : ∀ budget, Yields source Expr.Readable (negation source budget)
  | 0 => by
    intro tokens result rest located read
    simp [negation] at read
  | budget + 1 => by
    intro tokens result rest located read
    cases tokens with
    | nil =>
      rw [negation] at read
      exact comparison_yields budget _ _ _ located read
    | cons token tokens =>
      rw [negation] at read
      split at read
      · rw [bind_eq_ok] at read
        obtain ⟨⟨operand, left⟩, readOperand, read⟩ := read
        obtain ⟨rfl, rfl⟩ : Expr.not operand = result ∧ left = rest := by simpa using read
        obtain ⟨suffix, readable⟩ := negation_yields budget _ _ _ located.tail readOperand
        exact ⟨suffix.trans (List.suffix_cons ..), readable⟩
      · exact comparison_yields budget _ _ _ located read

theorem comparison_yields : ∀ budget, Yields source Expr.Readable (comparison source budget)
  | 0 => by
    intro tokens result rest located read
    simp [comparison] at read
  | budget + 1 => by
    intro tokens result rest located read
    rw [comparison, bind_eq_ok] at read
    obtain ⟨⟨left, behind⟩, readLeft, read⟩ := read
    obtain ⟨suffix, leftReadable⟩ := sum_yields budget _ _ _ located readLeft
    have locatedBehind := located.of_suffix suffix
    simp only at read
    split at read
    · rw [bind_eq_ok] at read
      obtain ⟨⟨isToken, afterIs⟩, readIs, read⟩ := read
      obtain ⟨rfl, isWord⟩ := expectWord_eq_ok.mp readIs
      rw [bind_eq_ok] at read
      obtain ⟨⟨nullToken, behindNull⟩, readNull, read⟩ := read
      obtain ⟨rfl, rfl⟩ : Expr.nullTest left (skipWord "not" afterIs).1 = result ∧
          behindNull = rest := by simpa using read
      have afterNot := skipWord_suffix "not" afterIs
      rw [(expectWord_eq_ok.mp readNull).1] at afterNot
      refine ⟨?_, fun _ => leftReadable (unopened_of_isWord isWord)⟩
      exact (((List.suffix_cons ..).trans afterNot).trans (List.suffix_cons ..)).trans suffix
    · split at read
      · rename_i notWord
        rw [Bool.and_eq_true] at notWord
        obtain ⟨token, others, rfl, isWord⟩ := startsWithWord_eq_true.mp notWord.1
        rw [bind_eq_ok] at read
        obtain ⟨⟨positive, left'⟩, readTail, read⟩ := read
        obtain ⟨rfl, rfl⟩ : Expr.not positive = result ∧ left' = rest := by simpa using read
        obtain ⟨further, readable⟩ := comparisonTail_yields budget left _ _ _ locatedBehind.tail
          (fun _ => leftReadable (unopened_of_isWord isWord)) readTail
        exact ⟨(further.trans (List.suffix_cons ..)).trans suffix, readable⟩
      · obtain ⟨further, readable⟩ :=
          comparisonTail_yields budget left _ _ _ locatedBehind leftReadable read
        exact ⟨further.trans suffix, readable⟩

theorem comparisonTail_yields :
    ∀ budget left tokens result rest, Located source tokens →
      (Unopened tokens → left.Readable) →
      comparisonTail source budget left tokens = .ok (result, rest) →
      rest <:+ tokens ∧ (Unopened rest → result.Readable)
  | 0 => by
    intro left tokens result rest located leftReadable read
    simp [comparisonTail] at read
  | budget + 1 => by
    intro left tokens result rest located leftReadable read
    cases tokens with
    | nil =>
      obtain ⟨rfl, rfl⟩ : left = result ∧ [] = rest := by simpa [comparisonTail] using read
      exact ⟨List.suffix_rfl, leftReadable⟩
    | cons token tokens =>
      rw [comparisonTail] at read
      split at read
      · rename_i isWord
        rw [bind_eq_ok] at read
        obtain ⟨⟨candidates, behind⟩, readCandidates, read⟩ := read
        obtain ⟨rfl, rfl⟩ : Expr.oneOf left candidates = result ∧ behind = rest := by
          simpa using read
        obtain ⟨suffix, readable⟩ :=
          parenthesized_yields (sum_yields budget) budget _ _ _ located.tail readCandidates
        refine ⟨suffix.trans (List.suffix_cons ..), fun unopened => ?_⟩
        exact ⟨leftReadable (unopened_of_isWord isWord),
          Expr.readableEach_iff.mpr (readable unopened)⟩
      · split at read
        · obtain ⟨rfl, rfl⟩ : left = result ∧ token :: tokens = rest := by simpa using read
          exact ⟨List.suffix_rfl, leftReadable⟩
        · rename_i op operator
          rw [bind_eq_ok] at read
          obtain ⟨⟨right, behind⟩, readRight, read⟩ := read
          obtain ⟨rfl, rfl⟩ : Expr.relational op left right = result ∧ behind = rest := by
            simpa using read
          obtain ⟨suffix, rightReadable⟩ := sum_yields budget _ _ _ located.tail readRight
          refine ⟨suffix.trans (List.suffix_cons ..), fun unopened => ?_⟩
          exact ⟨leftReadable (unopened_of_comparison? operator), rightReadable unopened⟩

theorem sum_yields : ∀ budget, Yields source Expr.Readable (sum source budget)
  | 0 => by
    intro tokens result rest located read
    simp [sum] at read
  | budget + 1 => by
    intro tokens result rest located read
    rw [sum] at read
    exact joined_yields sumOperator?_joins (product_yields budget) budget _ _ _ located read

theorem product_yields : ∀ budget, Yields source Expr.Readable (product source budget)
  | 0 => by
    intro tokens result rest located read
    simp [product] at read
  | budget + 1 => by
    intro tokens result rest located read
    rw [product] at read
    exact joined_yields productOperator?_joins (unary_yields budget) budget _ _ _ located read

theorem unary_yields : ∀ budget, Yields source Expr.Readable (unary source budget)
  | 0 => by
    intro tokens result rest located read
    simp [unary] at read
  | budget + 1 => by
    intro tokens result rest located read
    cases tokens with
    | nil =>
      rw [unary] at read
      exact primary_yields budget _ _ _ located read
    | cons token tokens =>
      rw [unary] at read
      split at read
      · rw [bind_eq_ok] at read
        obtain ⟨⟨operand, left⟩, readOperand, read⟩ := read
        obtain ⟨rfl, rfl⟩ : Expr.negate operand = result ∧ left = rest := by simpa using read
        obtain ⟨suffix, readable⟩ := unary_yields budget _ _ _ located.tail readOperand
        exact ⟨suffix.trans (List.suffix_cons ..), readable⟩
      · exact primary_yields budget _ _ _ located read

theorem primary_yields : ∀ budget, Yields source Expr.Readable (primary source budget)
  | 0 => by
    intro tokens result rest located read
    simp [primary] at read
  | budget + 1 => by
    intro tokens result rest located read
    cases tokens with
    | nil => simp [primary] at read
    | cons token tokens =>
      rw [primary] at read
      split at read
      · rename_i kind
        obtain ⟨rfl, readable⟩ := number_readable located kind read
        exact ⟨List.suffix_cons .., fun _ => readable⟩
      · obtain ⟨rfl, readable⟩ := string_readable read
        exact ⟨List.suffix_cons .., fun _ => readable⟩
      · obtain ⟨suffix, readable⟩ := parameter_yields _ _ _ located.tail read
        exact ⟨suffix.trans (List.suffix_cons ..), readable⟩
      · split at read
        · rw [bind_eq_ok] at read
          obtain ⟨⟨query, behind⟩, readQuery, read⟩ := read
          obtain ⟨suffix, readable⟩ := select_yields budget _ _ _ located.tail readQuery
          rw [bind_eq_ok] at read
          obtain ⟨⟨closing, left⟩, readClosing, read⟩ := read
          obtain ⟨rfl, kind⟩ := expect_eq_ok.mp readClosing
          obtain ⟨rfl, rfl⟩ : Expr.query query = result ∧ left = rest := by simpa using read
          refine ⟨((List.suffix_cons ..).trans suffix).trans (List.suffix_cons ..), fun _ => ?_⟩
          exact readable (unopened_cons (by rw [kind]; decide))
        · rw [bind_eq_ok] at read
          obtain ⟨⟨inner, behind⟩, readInner, read⟩ := read
          obtain ⟨suffix, readable⟩ := disjunction_yields budget _ _ _ located.tail readInner
          rw [bind_eq_ok] at read
          obtain ⟨⟨closing, left⟩, readClosing, read⟩ := read
          obtain ⟨rfl, kind⟩ := expect_eq_ok.mp readClosing
          obtain ⟨rfl, rfl⟩ : inner = result ∧ left = rest := by simpa using read
          refine ⟨((List.suffix_cons ..).trans suffix).trans (List.suffix_cons ..), fun _ => ?_⟩
          exact readable (unopened_cons (by rw [kind]; decide))
      · obtain ⟨rfl, rfl⟩ : Expr.asterisk [] = result ∧ tokens = rest := by simpa using read
        exact ⟨List.suffix_cons .., fun _ => .inl rfl⟩
      · rename_i kind
        exact wordPrimary_yields budget _ _ _ _ located kind read
      · simp at read

theorem wordPrimary_yields :
    ∀ budget token tokens result rest, Located source (token :: tokens) → token.kind = .word →
      wordPrimary source budget token tokens = .ok (result, rest) →
      rest <:+ token :: tokens ∧ (Unopened rest → result.Readable)
  | 0 => by
    intro token tokens result rest located word read
    simp [wordPrimary] at read
  | budget + 1 => by
    intro token tokens result rest located word read
    have isName := isName_of_located located word
    rw [wordPrimary] at read
    split at read
    · obtain ⟨rfl, rfl⟩ : Expr.boolean true = result ∧ tokens = rest := by simpa using read
      exact ⟨List.suffix_cons .., fun _ => trivial⟩
    rename_i notTrue
    split at read
    · obtain ⟨rfl, rfl⟩ : Expr.boolean false = result ∧ tokens = rest := by simpa using read
      exact ⟨List.suffix_cons .., fun _ => trivial⟩
    rename_i notFalse
    split at read
    · obtain ⟨rfl, rfl⟩ : Expr.literal .null = result ∧ tokens = rest := by simpa using read
      exact ⟨List.suffix_cons .., fun _ => trivial⟩
    rename_i notNull
    split at read
    · rename_i existence
      rw [Bool.and_eq_true] at existence
      obtain ⟨opening, inside, rfl, -⟩ := startsWith_eq_true.mp existence.2
      rw [bind_eq_ok] at read
      obtain ⟨⟨query, behind⟩, readQuery, read⟩ := read
      obtain ⟨suffix, readable⟩ := nestedQuery_yields budget _ _ _ located.tail.tail readQuery
      rw [bind_eq_ok] at read
      obtain ⟨⟨closing, left⟩, readClosing, read⟩ := read
      obtain ⟨rfl, kind⟩ := expect_eq_ok.mp readClosing
      obtain ⟨rfl, rfl⟩ : Expr.nonempty query = result ∧ left = rest := by simpa using read
      refine ⟨((List.suffix_cons ..).trans suffix).trans ⟨[token, opening], rfl⟩, fun _ => ?_⟩
      exact readable (unopened_cons (by rw [kind]; decide))
    rename_i notExists
    split at read
    · rw [bind_eq_ok] at read
      obtain ⟨⟨opening, inside⟩, readOpening, read⟩ := read
      obtain ⟨rfl, kind⟩ := expect_eq_ok.mp readOpening
      obtain ⟨suffix, raw, rfl, readable⟩ := readable_of_rawText located.tail kind read
      exact ⟨suffix.trans ⟨[token, opening], rfl⟩, fun _ => readable⟩
    rename_i notRaw
    split at read
    · obtain ⟨rfl, rfl⟩ : Expr.classTag [] = result ∧ tokens = rest := by simpa using read
      exact ⟨List.suffix_cons .., fun _ => .inl rfl⟩
    rename_i notTag
    split at read
    · rw [bind_eq_ok] at read
      obtain ⟨⟨query, left⟩, readQuery, read⟩ := read
      obtain ⟨rfl, rfl⟩ : Expr.query query = result ∧ left = rest := by simpa using read
      exact nestedQuery_yields budget _ _ _ located readQuery
    split at read
    · rename_i opens
      rw [bind_eq_ok] at read
      obtain ⟨⟨arguments, left⟩, readArguments, read⟩ := read
      obtain ⟨rfl, rfl⟩ : Expr.call token.text arguments = result ∧ left = rest := by
        simpa using read
      obtain ⟨suffix, readable⟩ := parenthesized_yields (disjunction_yields budget) budget _ _ _
        located.tail readArguments
      refine ⟨suffix.trans (List.suffix_cons ..), fun unopened => ⟨⟨isName, ?_⟩, ?_⟩⟩
      · simp only [opens, Bool.and_true, Bool.not_eq_true] at notExists notRaw
        rw [Bool.not_eq_true] at notTrue notFalse notNull
        simp [IsKeyword, callWords, toLower_ne_of_isWord_eq_false word, *]
      · exact Expr.readableEach_iff.mpr (readable unopened)
    · rename_i noParen
      have chain (unopened : Unopened tokens) : IsChain ([] ++ [token.text]) := by
        refine ⟨isName, ?_, by simp⟩
        have closed : startsWith .leftParen tokens = false := unopened
        simp only [closed, Bool.not_false, Bool.and_true, Bool.not_eq_true] at notTag
        rw [Bool.not_eq_true] at notTrue notFalse notNull
        simp [IsKeyword, pathWords, toLower_ne_of_isWord_eq_false word, *]
      obtain ⟨suffix, readable⟩ :=
        pathTail_yields budget [] token.text _ _ _ located.tail chain read
      exact ⟨suffix.trans (List.suffix_cons ..), readable⟩

theorem pathTail_yields :
    ∀ budget owner name tokens result rest, Located source tokens →
      (Unopened tokens → IsChain (owner ++ [name])) →
      pathTail source budget owner name tokens = .ok (result, rest) →
      rest <:+ tokens ∧ (Unopened rest → result.Readable)
  | 0 => by
    intro owner name tokens result rest located isChain read
    simp [pathTail] at read
  | budget + 1 => by
    intro owner name tokens result rest located isChain read
    rw [pathTail] at read
    split at read
    · rename_i dotted
      obtain ⟨dot, behind, rfl, kind⟩ := startsWith_eq_true.mp dotted
      have chain := isChain (unopened_cons (by rw [kind]; decide))
      simp only [List.tail_cons] at read
      split at read
      · rename_i starred
        obtain ⟨star, left, rfl, -⟩ := startsWith_eq_true.mp starred
        obtain ⟨rfl, rfl⟩ : Expr.asterisk (owner ++ [name]) = result ∧ left = rest := by
          simpa using read
        exact ⟨⟨[dot, star], rfl⟩, fun _ => .inr chain⟩
      · rw [bind_eq_ok] at read
        obtain ⟨⟨segment, behind'⟩, readSegment, read⟩ := read
        obtain ⟨rfl, word⟩ := expect_eq_ok.mp readSegment
        simp only at read
        split at read
        · obtain ⟨rfl, rfl⟩ : Expr.count owner name = result ∧ behind' = rest := by
            simpa using read
          exact ⟨⟨[dot, segment], rfl⟩, fun _ => chain⟩
        rename_i notCount
        split at read
        · rename_i contains
          rw [Bool.and_eq_true] at contains
          obtain ⟨opening, inside, rfl, -⟩ := startsWith_eq_true.mp contains.2
          rw [bind_eq_ok] at read
          obtain ⟨⟨element, after⟩, readElement, read⟩ := read
          obtain ⟨suffix, readable⟩ :=
            containsElement_yields budget _ _ _ located.tail.tail.tail readElement
          rw [bind_eq_ok] at read
          obtain ⟨⟨closing, left⟩, readClosing, read⟩ := read
          obtain ⟨rfl, kind⟩ := expect_eq_ok.mp readClosing
          obtain ⟨rfl, rfl⟩ : Expr.contains owner name element = result ∧ left = rest := by
            simpa using read
          refine ⟨((List.suffix_cons ..).trans suffix).trans ⟨[dot, segment, opening], rfl⟩, ?_⟩
          exact fun _ => ⟨chain, readable (unopened_cons (by rw [kind]; decide))⟩
        split at read
        · obtain ⟨rfl, rfl⟩ : Expr.classTag (owner ++ [name]) = result ∧ behind' = rest := by
            simpa using read
          exact ⟨⟨[dot, segment], rfl⟩, fun _ => .inr chain⟩
        · rename_i notTag
          have segmentIsName := isName_of_located located.tail word
          have longer (unopened : Unopened behind') :
              IsChain (owner ++ [name] ++ [segment.text]) := by
            have closed : startsWith .leftParen behind' = false := unopened
            simp only [closed, Bool.not_false, Bool.and_true, Bool.not_eq_true] at notCount notTag
            refine isChain_append chain ⟨segmentIsName, ?_⟩
            simp [IsKeyword, memberWords, toLower_ne_of_isWord_eq_false word, *]
          obtain ⟨suffix, readable⟩ := pathTail_yields budget (owner ++ [name]) segment.text _ _ _
            located.tail.tail longer read
          exact ⟨suffix.trans ⟨[dot, segment], rfl⟩, readable⟩
    · obtain ⟨rfl, rfl⟩ : Expr.path ⟨owner, name⟩ = result ∧ tokens = rest := by simpa using read
      exact ⟨List.suffix_rfl, isChain⟩

theorem containsElement_yields :
    ∀ budget, Yields source Expr.Readable (containsElement source budget)
  | 0 => by
    intro tokens result rest located read
    simp [containsElement] at read
  | budget + 1 => by
    intro tokens result rest located read
    rw [containsElement] at read
    split at read
    · have dropped : tokens.drop 2 <:+ tokens := List.drop_suffix 2 tokens
      obtain ⟨suffix, readable⟩ :=
        disjunction_yields budget _ _ _ (located.of_suffix dropped) read
      exact ⟨suffix.trans dropped, readable⟩
    · exact disjunction_yields budget _ _ _ located read

theorem nestedQuery_yields :
    ∀ budget, Yields source Query.Readable (nestedQuery source budget)
  | 0 => by
    intro tokens result rest located read
    simp [nestedQuery] at read
  | budget + 1 => by
    intro tokens result rest located read
    rw [nestedQuery] at read
    split at read
    · exact select_yields budget _ _ _ located read
    · rw [bind_eq_ok] at read
      obtain ⟨⟨className, behind⟩, readName, read⟩ := read
      obtain ⟨nameToken, rfl, word, rfl⟩ := identifier_eq_ok.mp readName
      have isName := isName_of_located located word
      rw [bind_eq_ok] at read
      obtain ⟨⟨condition, left⟩, readCondition, read⟩ := read
      obtain ⟨rfl, rfl⟩ : Query.selectAll nameToken.text condition = result ∧ left = rest := by
        simpa using read
      obtain ⟨suffix, readable⟩ :=
        optional_yields (disjunction_yields budget) located.tail readCondition
      refine ⟨suffix.trans (List.suffix_cons ..), fun unopened => ?_⟩
      exact readable_selectAll isName (readable unopened).2

theorem select_yields : ∀ budget, Yields source Query.Readable (select source budget)
  | 0 => by
    intro tokens result rest located read
    simp [select] at read
  | budget + 1 => by
    intro tokens result rest located read
    rw [select, bind_eq_ok] at read
    obtain ⟨⟨selectToken, afterSelect⟩, readSelect, read⟩ := read
    obtain ⟨rfl, -⟩ := expectWord_eq_ok.mp readSelect
    have afterDistinct := skipWord_suffix "distinct" afterSelect
    have located1 := located.tail.of_suffix afterDistinct
    rw [bind_eq_ok] at read
    obtain ⟨⟨items, afterItems⟩, readItems, read⟩ := read
    obtain ⟨suffix1, itemsGood⟩ :=
      commaSeparated_yields (selectItem_yields budget) budget _ _ _ located1 readItems
    rw [bind_eq_ok] at read
    obtain ⟨⟨fromToken, afterFrom⟩, readFrom, read⟩ := read
    obtain ⟨rfl, fromWord⟩ := expectWord_eq_ok.mp readFrom
    have located2 := (located1.of_suffix suffix1).tail
    rw [bind_eq_ok] at read
    obtain ⟨⟨sources, afterSources⟩, readSources, read⟩ := read
    obtain ⟨suffix2, sourcesGood⟩ :=
      commaSeparated_yields fromItem_yields budget _ _ _ located2 readSources
    have located3 := located2.of_suffix suffix2
    rw [bind_eq_ok] at read
    obtain ⟨⟨condition, afterCondition⟩, readCondition, read⟩ := read
    obtain ⟨suffix3, conditionGood⟩ :=
      optional_yields (disjunction_yields budget) located3 readCondition
    have located4 := located3.of_suffix suffix3
    rw [bind_eq_ok] at read
    obtain ⟨⟨groupBy, afterGroup⟩, readGroup, read⟩ := read
    obtain ⟨suffix4, groupGood⟩ :=
      optionalList_yields (commaSeparated_yields (disjunction_yields budget) budget) located4
        readGroup
    have located5 := located4.of_suffix suffix4
    rw [bind_eq_ok] at read
    obtain ⟨⟨having, afterHaving⟩, readHaving, read⟩ := read
    obtain ⟨suffix5, havingGood⟩ :=
      optional_yields (disjunction_yields budget) located5 readHaving
    have located6 := located5.of_suffix suffix5
    rw [bind_eq_ok] at read
    obtain ⟨⟨orderBy, afterOrder⟩, readOrder, read⟩ := read
    obtain ⟨suffix6, orderGood⟩ :=
      optionalList_yields (commaSeparated_yields (orderItem_yields budget) budget) located6
        readOrder
    obtain ⟨rfl, rfl⟩ : (⟨(skipWord "distinct" afterSelect).1, items, sources, condition, groupBy,
        having, orderBy⟩ : Query) = result ∧ afterOrder = rest := by simpa using read
    constructor
    · have clauses : afterOrder <:+ afterSources :=
        ((suffix6.trans suffix5).trans suffix4).trans suffix3
      have sourcesAndItems : afterSources <:+ (skipWord "distinct" afterSelect).2 :=
        (suffix2.trans (List.suffix_cons ..)).trans suffix1
      exact ((clauses.trans sourcesAndItems).trans afterDistinct).trans (List.suffix_cons ..)
    · -- No clause at the end hides an opening parenthesis behind the clauses in front of it.
      intro unopened
      obtain ⟨unopened, orderReadable⟩ := orderGood unopened
      obtain ⟨unopened, havingReadable⟩ := havingGood unopened
      obtain ⟨unopened, groupReadable⟩ := groupGood unopened
      obtain ⟨unopened, conditionReadable⟩ := conditionGood unopened
      obtain ⟨someSource, sourcesReadable⟩ := sourcesGood unopened
      obtain ⟨someItem, itemsReadable⟩ := itemsGood (unopened_of_isWord fromWord)
      exact ⟨⟨someItem, SelectItem.readableEach_iff.mpr itemsReadable⟩,
        ⟨someSource, sourcesReadable⟩, Expr.readableOption_iff.mpr conditionReadable,
        Expr.readableEach_iff.mpr groupReadable, Expr.readableOption_iff.mpr havingReadable,
        OrderItem.readableEach_iff.mpr orderReadable⟩

theorem selectItem_yields :
    ∀ budget, Yields source
      (fun item : SelectItem => item.expression.Readable ∧ LabelReadable item.label)
      (selectItem source budget)
  | 0 => by
    intro tokens result rest located read
    simp [selectItem] at read
  | budget + 1 => by
    intro tokens result rest located read
    rw [selectItem, bind_eq_ok] at read
    obtain ⟨⟨expression, behind⟩, readExpression, read⟩ := read
    obtain ⟨suffix, readable⟩ := disjunction_yields budget _ _ _ located readExpression
    rw [bind_eq_ok] at read
    obtain ⟨⟨label, left⟩, readLabel, read⟩ := read
    obtain ⟨further, labelGood⟩ :=
      optional_yields identifier_yields (located.of_suffix suffix) readLabel
    obtain ⟨rfl, rfl⟩ : (⟨expression, label⟩ : SelectItem) = result ∧ left = rest := by
      simpa using read
    refine ⟨further.trans suffix, fun unopened => ?_⟩
    obtain ⟨unopened, isName⟩ := labelGood unopened
    exact ⟨readable unopened, isName⟩

theorem orderItem_yields :
    ∀ budget, Yields source (fun item : OrderItem => item.expression.Readable)
      (orderItem source budget)
  | 0 => by
    intro tokens result rest located read
    simp [orderItem] at read
  | budget + 1 => by
    intro tokens result rest located read
    rw [orderItem, bind_eq_ok] at read
    obtain ⟨⟨expression, behind⟩, readExpression, read⟩ := read
    obtain ⟨suffix, readable⟩ := disjunction_yields budget _ _ _ located readExpression
    obtain ⟨rfl, rfl⟩ : (⟨expression, (direction behind).1⟩ : OrderItem) = result ∧
        (direction behind).2 = rest := by simpa using read
    refine ⟨(direction_suffix behind).trans suffix, fun unopened => ?_⟩
    exact readable (unopened_of_direction unopened)

end

/-! ### Whole texts -/

/-- What a form reads from a whole text is good. -/
theorem good_of_parseText
    {good : α → Prop}
    {form : List Char → Nat → List Token → Except Stop (α × List Token)}
    {text : String}
    {result : α}
    (yields : ∀ budget, Yields text.toList good (form text.toList budget))
    (read : parseText form text = .ok result) :
    good result := by
  rw [parseText, bind_eq_ok] at read
  obtain ⟨tokens, scanned, read⟩ := read
  unfold whole at read
  split at read
  · rename_i result' found
    obtain rfl : result' = result := by simpa [Except.mapError] using read
    exact (yields _ _ _ _ (located_of_scan scanned) found).2 rfl
  · simp [Except.mapError] at read
  · simp [Except.mapError] at read

end Grammar

theorem readable_of_parseExpression
    {text : String}
    {e : Expr}
    (read : parseExpression text = .ok e) :
    e.Readable :=
  Grammar.good_of_parseText Grammar.disjunction_yields read

theorem readable_of_parseQuery
    {text : String}
    {q : Query}
    (read : parseQuery text = .ok q) :
    q.Readable :=
  Grammar.good_of_parseText Grammar.select_yields read

end ObjectQuery
