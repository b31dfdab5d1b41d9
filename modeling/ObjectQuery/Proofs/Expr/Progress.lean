import ObjectQuery.Proofs.Expr.Steps

/-!
Contract: every form of the language takes a token or stops.

A form may enter other forms in front of the same token, always ones of a lower rank, and goes round
a loop behind a token that it has taken. Sixteen steps for each token and the rank of the form are
therefore enough.

Owns:
- `Ends`, and the laws by which single tokens, rows, chains and clauses pass it on;
- `disjunction_ends`, `select_ends` and the other forms, by induction on the budget.

Does not own: what is read, and larger budgets.
-/

namespace ObjectQuery

namespace Grammar

variable {α β : Type} {tokens rest : List Token} {token : Token} {taken size budget : Nat}

/-- A reading of `tokens` ends within its budget: a result leaves an end of them, shorter by
`taken` tokens or more, and a failure is in front of one of them or behind the last. -/
def Ends (taken : Nat) (tokens : List Token) : Except Stop (α × List Token) → Prop
  | .ok (_, rest) => rest <:+ tokens ∧ rest.length + taken ≤ tokens.length
  | .error (.unexpected _ remaining) => remaining <:+ tokens
  | .error .outOfBudget => False

namespace Ends

variable {outcome : Except Stop (α × List Token)}

theorem ok (result : α) (tokens : List Token) : Ends 0 tokens (.ok (result, tokens)) :=
  ⟨List.suffix_rfl, Nat.le_refl _⟩

theorem unexpected (expected : Expectation) (tokens : List Token) :
    Ends taken tokens (.error (.unexpected expected tokens) : Except Stop (α × List Token)) :=
  List.suffix_rfl

theorem unexpected_nil (expected : Expectation) (tokens : List Token) :
    Ends taken tokens (.error (.unexpected expected []) : Except Stop (α × List Token)) :=
  List.nil_suffix

/-- What ends on the tokens behind others ends on all of them. -/
theorem behind
    (suffix : rest <:+ tokens)
    (shorter : rest.length + taken ≤ tokens.length)
    (ends : Ends 0 rest outcome) :
    Ends taken tokens outcome := by
  match outcome, ends with
  | .ok (_, _), ⟨suffix', shorter'⟩ => exact ⟨suffix'.trans suffix, by omega⟩
  | .error (.unexpected _ _), suffix' => exact List.IsSuffix.trans suffix' suffix

theorem behind_cons (ends : Ends 0 rest outcome) : Ends 1 (token :: rest) outcome :=
  ends.behind (List.suffix_cons ..) (Nat.le_refl _)

theorem weaken (ends : Ends taken tokens outcome) : Ends 0 tokens outcome := by
  match outcome, ends with
  | .ok (_, _), ⟨suffix, shorter⟩ => exact ⟨suffix, by omega⟩
  | .error (.unexpected _ _), suffix => exact suffix

/-- A step that takes tokens, and what follows it on the tokens that it leaves. -/
theorem bind
    {next : α × List Token → Except Stop (β × List Token)}
    (first : Ends taken tokens outcome)
    (second : ∀ result rest, rest.length + taken ≤ tokens.length →
      Ends 0 rest (next (result, rest))) :
    Ends taken tokens (outcome >>= next) := by
  match outcome, first with
  | .ok (result, rest), ⟨suffix, shorter⟩ =>
    exact (second result rest shorter).behind suffix shorter
  | .error (.unexpected _ _), suffix => exact suffix

/-- A reading that ends does not use up its budget. -/
theorem ne_outOfBudget (ends : Ends taken tokens outcome) : outcome ≠ .error .outOfBudget := by
  rintro rfl
  exact ends

end Ends

/-! ### Single tokens -/

theorem expect_ends (kind : TokenKind) (tokens : List Token) :
    Ends 1 tokens (expect kind tokens) := by
  cases tokens with
  | nil => exact .unexpected ..
  | cons token rest =>
    rw [expect]
    split
    · exact (Ends.ok token rest).behind_cons
    · exact .unexpected ..

theorem expectWord_ends (word : String) (tokens : List Token) :
    Ends 1 tokens (expectWord word tokens) := by
  cases tokens with
  | nil => exact .unexpected ..
  | cons token rest =>
    rw [expectWord]
    split
    · exact (Ends.ok token rest).behind_cons
    · exact .unexpected ..

theorem identifier_ends (tokens : List Token) : Ends 1 tokens (identifier tokens) :=
  (expect_ends .word tokens).bind fun token rest _ => .ok token.text rest

theorem number_ends (token : Token) (rest : List Token) :
    Ends 1 (token :: rest) (number token rest) := by
  unfold number
  split
  · exact (Ends.ok _ rest).behind_cons
  · exact .unexpected ..

theorem string_ends (token : Token) (rest : List Token) :
    Ends 1 (token :: rest) (string token rest) := by
  unfold string
  split
  · exact (Ends.ok _ rest).behind_cons
  · exact .unexpected ..

/-- A closing token and the result in front of it. -/
theorem closed_ends (kind : TokenKind) (result : α) (tokens : List Token) :
    Ends 0 tokens (do
      let (_, rest) ← expect kind tokens
      pure (result, rest)) :=
  ((expect_ends kind tokens).bind fun _ rest _ => .ok result rest).weaken

theorem parameter_ends (tokens : List Token) : Ends 0 tokens (parameter tokens) := by
  cases tokens with
  | nil => exact .unexpected ..
  | cons token rest =>
    unfold parameter
    rw [expect]
    split
    · rw [ok_bind]
      dsimp only
      split
      · exact .unexpected ..
      · refine Ends.weaken (Ends.behind_cons ?_)
        split
        · refine ((expect_ends .colon rest).bind fun _ rest _ => ?_).weaken
          refine ((identifier_ends rest).bind fun modifier rest _ => ?_).weaken
          exact closed_ends ..
        · exact closed_ends ..
    · exact .unexpected ..

theorem closing?_suffix
    {depth : Nat}
    {close : Token}
    (found : closing? depth tokens = some (close, rest)) :
    rest <:+ tokens := by
  induction tokens generalizing depth with
  | nil => simp [closing?] at found
  | cons token tokens inductionHypothesis =>
    have onwards {depth : Nat} (found : closing? depth tokens = some (close, rest)) :
        rest <:+ token :: tokens :=
      (inductionHypothesis found).trans (List.suffix_cons ..)
    unfold closing? at found
    split at found
    · exact onwards found
    · split at found
      · obtain ⟨-, rfl⟩ := Prod.mk.inj (Option.some.inj found)
        exact List.suffix_cons ..
      · exact onwards found
    · exact onwards found

theorem rawText_ends (source : List Char) (opening : Token) (tokens : List Token) :
    Ends 0 tokens (rawText source opening tokens) := by
  unfold rawText
  split
  · rename_i close rest found
    have suffix := closing?_suffix found
    exact (Ends.ok _ rest).behind suffix suffix.length_le
  · exact .unexpected_nil ..

theorem fromItem_ends (tokens : List Token) : Ends 1 tokens (fromItem tokens) := by
  refine (identifier_ends tokens).bind fun className rest _ => ?_
  dsimp only
  split
  · rename_i afterAs skipped
    obtain ⟨asToken, rfl, -⟩ := skipWord_eq_true.mp skipped
    refine (((identifier_ends afterAs).bind fun label rest _ => ?_).weaken.behind_cons).weaken
    exact .ok ..
  · rename_i skipped
    obtain ⟨rfl, -⟩ := skipWord_eq_false.mp skipped
    exact .ok ..
  · rename_i next after skipped
    obtain ⟨rfl, -⟩ := skipWord_eq_false.mp skipped
    split
    · exact (Ends.ok _ after).behind_cons.weaken
    · exact .ok ..

/-! ### Rows and clauses -/

section Rows

variable {item : List Token → Except Stop (α × List Token)}

/-- One round of the loop for each token is enough: an item takes one at least. -/
theorem commaSeparated_ends
    (each : ∀ tokens, tokens.length ≤ size → Ends 1 tokens (item tokens))
    (few : tokens.length ≤ size)
    (enough : tokens.length < budget) :
    Ends 1 tokens (commaSeparated item budget tokens) := by
  induction budget generalizing tokens with
  | zero => omega
  | succ budget inductionHypothesis =>
    rw [commaSeparated]
    refine (each tokens few).bind fun first rest shorter => ?_
    cases rest with
    | nil => exact .ok ..
    | cons token after =>
      dsimp only
      rw [List.length_cons] at shorter
      split
      · have others : Ends 1 after (commaSeparated item budget after) :=
          inductionHypothesis (by omega) (by omega)
        refine ((others.bind fun others rest _ => ?_).weaken.behind_cons).weaken
        exact .ok ..
      · exact .ok ..

theorem parenthesized_ends
    (each : ∀ tokens, tokens.length ≤ size → Ends 1 tokens (item tokens))
    (few : tokens.length ≤ size)
    (enough : tokens.length < budget) :
    Ends 1 tokens (parenthesized item budget tokens) := by
  refine (expect_ends .leftParen tokens).bind fun _ rest shorter => ?_
  dsimp only
  split
  · exact closed_ends ..
  · refine Ends.weaken (Ends.bind (commaSeparated_ends each (by omega) (by omega)) ?_)
    exact fun items rest _ => closed_ends ..

/-- A clause that may be missing. -/
theorem optional_ends
    (word : String)
    (content : ∀ tokens, tokens.length ≤ size → Ends 1 tokens (item tokens))
    (few : tokens.length ≤ size) :
    Ends 0 tokens (optional word item tokens) := by
  unfold optional
  split
  · rename_i rest skipped
    obtain ⟨token, rfl, -⟩ := skipWord_eq_true.mp skipped
    rw [List.length_cons] at few
    refine (((content rest (by omega)).bind fun found rest _ => ?_).weaken.behind_cons).weaken
    exact .ok ..
  · rename_i rest skipped
    obtain ⟨rfl, -⟩ := skipWord_eq_false.mp skipped
    exact .ok ..

theorem optionalList_ends
    {items : List Token → Except Stop (List α × List Token)}
    (word : String)
    (content : ∀ tokens, tokens.length ≤ size → Ends 1 tokens (items tokens))
    (few : tokens.length ≤ size) :
    Ends 0 tokens (optionalList word items tokens) := by
  unfold optionalList
  split
  · rename_i rest skipped
    obtain ⟨token, rfl, -⟩ := skipWord_eq_true.mp skipped
    rw [List.length_cons] at few
    refine Ends.weaken (Ends.behind_cons ?_)
    exact ((expectWord_ends "by" rest).bind fun _ rest shorter =>
      (content rest (by omega)).weaken).weaken
  · rename_i rest skipped
    obtain ⟨rfl, -⟩ := skipWord_eq_false.mp skipped
    exact .ok ..

end Rows

/-! ### Operators of one level -/

section Operators

variable {operator? : Token → Option (Expr → Expr → Expr)}
variable {operand : List Token → Except Stop (Expr × List Token)}

/-- One round of the loop for each token is enough: it takes an operator. -/
theorem chain_ends
    (each : ∀ tokens, tokens.length ≤ size → Ends 1 tokens (operand tokens))
    (left : Expr)
    (few : tokens.length ≤ size)
    (enough : tokens.length < budget) :
    Ends 0 tokens (chain operator? operand budget left tokens) := by
  induction budget generalizing left tokens with
  | zero => omega
  | succ budget inductionHypothesis =>
    cases tokens with
    | nil => exact .ok ..
    | cons token rest =>
      rw [List.length_cons] at few enough
      rw [chain]
      split
      · exact .ok ..
      · rename_i join _
        refine Ends.weaken (Ends.behind_cons ?_)
        refine ((each rest (by omega)).bind fun right rest shorter => ?_).weaken
        exact inductionHypothesis (join left right) (by omega) (by omega)

theorem joined_ends
    (each : ∀ tokens, tokens.length ≤ size → Ends 1 tokens (operand tokens))
    (few : tokens.length ≤ size)
    (enough : tokens.length < budget) :
    Ends 1 tokens (joined operator? operand budget tokens) :=
  (each tokens few).bind fun left _ _ => chain_ends each left (by omega) (by omega)

end Operators

/-! ### All forms

A form of rank `r` needs `16 * tokens.length + r` steps; the forms that it enters in front of the
same tokens have lower ranks. -/

section Forms

variable {source : List Char}

theorem length_drop_of_startsShortQuery (short : startsShortQuery tokens = true) :
    (tokens.drop 2).length + 1 ≤ tokens.length := by
  cases tokens with
  | nil => cases short
  | cons token rest =>
    rw [startsShortQuery, Bool.and_eq_true] at short
    obtain ⟨word, behind, rfl, -⟩ := startsWithWord_eq_true.mp short.2
    show behind.length + 1 ≤ behind.length + 1 + 1
    omega

mutual

theorem disjunction_ends : ∀ budget tokens, 16 * tokens.length + 11 ≤ budget →
    Ends 1 tokens (disjunction source budget tokens)
  | 0, tokens, enough => by omega
  | budget + 1, tokens, enough => by
    rw [disjunction]
    exact joined_ends
      (fun inner few => conjunction_ends budget inner (by omega)) (Nat.le_refl _) (by omega)

theorem conjunction_ends : ∀ budget tokens, 16 * tokens.length + 10 ≤ budget →
    Ends 1 tokens (conjunction source budget tokens)
  | 0, tokens, enough => by omega
  | budget + 1, tokens, enough => by
    rw [conjunction]
    exact joined_ends
      (fun inner few => negation_ends budget inner (by omega)) (Nat.le_refl _) (by omega)

theorem negation_ends : ∀ budget tokens, 16 * tokens.length + 9 ≤ budget →
    Ends 1 tokens (negation source budget tokens)
  | 0, tokens, enough => by omega
  | budget + 1, [], enough => by
    rw [negation]
    exact comparison_ends budget [] (by omega)
  | budget + 1, token :: rest, enough => by
    rw [negation]
    split
    · rw [List.length_cons] at enough
      refine Ends.behind_cons ?_
      refine ((negation_ends budget rest (by omega)).bind fun operand rest _ => ?_).weaken
      exact .ok ..
    · exact comparison_ends budget (token :: rest) (by omega)

theorem comparison_ends : ∀ budget tokens, 16 * tokens.length + 8 ≤ budget →
    Ends 1 tokens (comparison source budget tokens)
  | 0, tokens, enough => by omega
  | budget + 1, tokens, enough => by
    rw [comparison]
    refine (sum_ends budget tokens (by omega)).bind fun left rest shorter => ?_
    dsimp only
    split
    · refine ((expectWord_ends "is" rest).bind fun _ rest _ => ?_).weaken
      have suffix := skipWord_suffix "not" rest
      refine Ends.behind suffix suffix.length_le ?_
      refine ((expectWord_ends "null" _).bind fun _ rest _ => ?_).weaken
      exact .ok ..
    · split
      · have shorterTail := rest.length_tail
        refine Ends.behind (List.tail_suffix rest) (by omega) ?_
        refine (comparisonTail_ends budget left rest.tail (by omega)).bind fun positive rest _ => ?_
        exact .ok ..
      · exact comparisonTail_ends budget left rest (by omega)

theorem comparisonTail_ends : ∀ budget left tokens, 16 * tokens.length + 1 ≤ budget →
    Ends 0 tokens (comparisonTail source budget left tokens)
  | 0, left, tokens, enough => by omega
  | budget + 1, left, [], enough => by
    rw [comparisonTail]
    exact .ok ..
  | budget + 1, left, token :: rest, enough => by
    rw [List.length_cons] at enough
    rw [comparisonTail]
    split
    · refine Ends.weaken (Ends.behind_cons ?_)
      have candidates := parenthesized_ends
        (fun inner few => sum_ends budget inner (by omega)) (Nat.le_refl _)
        (show rest.length < budget by omega)
      refine (candidates.bind fun candidates rest _ => ?_).weaken
      exact .ok ..
    · split
      · exact .ok ..
      · refine Ends.weaken (Ends.behind_cons ?_)
        refine ((sum_ends budget rest (by omega)).bind fun right rest _ => ?_).weaken
        exact .ok ..

theorem sum_ends : ∀ budget tokens, 16 * tokens.length + 7 ≤ budget →
    Ends 1 tokens (sum source budget tokens)
  | 0, tokens, enough => by omega
  | budget + 1, tokens, enough => by
    rw [sum]
    exact joined_ends
      (fun inner few => product_ends budget inner (by omega)) (Nat.le_refl _) (by omega)

theorem product_ends : ∀ budget tokens, 16 * tokens.length + 6 ≤ budget →
    Ends 1 tokens (product source budget tokens)
  | 0, tokens, enough => by omega
  | budget + 1, tokens, enough => by
    rw [product]
    exact joined_ends
      (fun inner few => unary_ends budget inner (by omega)) (Nat.le_refl _) (by omega)

theorem unary_ends : ∀ budget tokens, 16 * tokens.length + 5 ≤ budget →
    Ends 1 tokens (unary source budget tokens)
  | 0, tokens, enough => by omega
  | budget + 1, [], enough => by
    rw [unary]
    exact primary_ends budget [] (by omega)
  | budget + 1, token :: rest, enough => by
    rw [unary]
    split
    · rw [List.length_cons] at enough
      refine Ends.behind_cons ?_
      refine ((unary_ends budget rest (by omega)).bind fun operand rest _ => ?_).weaken
      exact .ok ..
    · exact primary_ends budget (token :: rest) (by omega)

theorem primary_ends : ∀ budget tokens, 16 * tokens.length + 4 ≤ budget →
    Ends 1 tokens (primary source budget tokens)
  | 0, tokens, enough => by omega
  | budget + 1, [], enough => by
    rw [primary]
    exact .unexpected ..
  | budget + 1, token :: rest, enough => by
    rw [List.length_cons] at enough
    rw [primary]
    split
    · exact number_ends token rest
    · exact string_ends token rest
    · exact (parameter_ends rest).behind_cons
    · refine Ends.behind_cons ?_
      split
      · refine ((select_ends budget rest (by omega)).bind fun query rest _ => ?_).weaken
        exact closed_ends ..
      · refine ((disjunction_ends budget rest (by omega)).bind fun inner rest _ => ?_).weaken
        exact closed_ends ..
    · exact (Ends.ok _ rest).behind_cons
    · exact wordPrimary_ends budget token rest (by omega)
    · exact .unexpected ..

theorem wordPrimary_ends : ∀ budget token rest, 16 * (rest.length + 1) + 3 ≤ budget →
    Ends 1 (token :: rest) (wordPrimary source budget token rest)
  | 0, token, rest, enough => by omega
  | budget + 1, token, rest, enough => by
    have behindTail : rest.tail.length ≤ rest.length := (List.tail_suffix rest).length_le
    rw [wordPrimary]
    split
    · exact (Ends.ok _ rest).behind_cons
    split
    · exact (Ends.ok _ rest).behind_cons
    split
    · exact (Ends.ok _ rest).behind_cons
    split
    · refine Ends.behind_cons (Ends.behind (List.tail_suffix rest) behindTail ?_)
      refine ((nestedQuery_ends budget rest.tail (by omega)).bind fun query rest _ => ?_).weaken
      exact closed_ends ..
    split
    · refine Ends.behind_cons ?_
      exact ((expect_ends .leftParen rest).bind fun opening rest _ => rawText_ends ..).weaken
    split
    · exact (Ends.ok _ rest).behind_cons
    split
    · refine (nestedQuery_ends budget (token :: rest) ?_).bind fun query rest _ => .ok ..
      rw [List.length_cons]
      omega
    split
    · refine Ends.behind_cons ?_
      have arguments := parenthesized_ends
        (fun inner few => disjunction_ends budget inner (by omega))
        (Nat.le_refl _) (show rest.length < budget by omega)
      refine (arguments.bind fun arguments rest _ => ?_).weaken
      exact .ok ..
    · exact (pathTail_ends budget [] token.text rest (by omega)).behind_cons

theorem pathTail_ends : ∀ budget owner name tokens, 16 * tokens.length + 1 ≤ budget →
    Ends 0 tokens (pathTail source budget owner name tokens)
  | 0, owner, name, tokens, enough => by omega
  | budget + 1, owner, name, tokens, enough => by
    rw [pathTail]
    split
    · rename_i dotted
      obtain ⟨dot, rest, rfl, -⟩ := startsWith_eq_true.mp dotted
      rw [List.length_cons] at enough
      refine Ends.weaken (Ends.behind_cons ?_)
      rw [List.tail_cons]
      by_cases starred : startsWith .star rest = true
      · rw [if_pos starred]
        exact (Ends.ok _ _).behind (List.tail_suffix rest) (List.tail_suffix rest).length_le
      · rw [if_neg starred]
        refine ((expect_ends .word rest).bind fun segment rest shorter => ?_).weaken
        dsimp only
        have behindTail : rest.tail.length ≤ rest.length := (List.tail_suffix rest).length_le
        split
        · exact .ok ..
        split
        · refine Ends.behind (List.tail_suffix rest) behindTail ?_
          have ends := containsElement_ends budget rest.tail (by omega)
          refine (ends.bind fun element rest _ => ?_).weaken
          exact closed_ends ..
        split
        · exact .ok ..
        · exact pathTail_ends budget (owner ++ [name]) segment.text rest (by omega)
    · exact .ok ..

theorem containsElement_ends : ∀ budget tokens, 16 * tokens.length + 12 ≤ budget →
    Ends 1 tokens (containsElement source budget tokens)
  | 0, tokens, enough => by omega
  | budget + 1, tokens, enough => by
    rw [containsElement]
    split
    · rename_i short
      have dropped := List.drop_suffix 2 tokens
      have shorter := length_drop_of_startsShortQuery short
      exact Ends.behind dropped shorter (disjunction_ends budget (tokens.drop 2) (by omega)).weaken
    · exact disjunction_ends budget tokens (by omega)

theorem nestedQuery_ends : ∀ budget tokens, 16 * tokens.length + 2 ≤ budget →
    Ends 1 tokens (nestedQuery source budget tokens)
  | 0, tokens, enough => by omega
  | budget + 1, tokens, enough => by
    rw [nestedQuery]
    split
    · exact select_ends budget tokens (by omega)
    · refine (identifier_ends tokens).bind fun className rest shorter => ?_
      refine Ends.bind (optional_ends "where"
        (fun inner few => disjunction_ends budget inner (by omega)) (Nat.le_refl _)) ?_
      exact fun condition rest _ => .ok ..

theorem select_ends : ∀ budget tokens, 16 * tokens.length + 1 ≤ budget →
    Ends 1 tokens (select source budget tokens)
  | 0, tokens, enough => by omega
  | budget + 1, tokens, enough => by
    rw [select]
    refine (expectWord_ends "select" tokens).bind fun _ afterSelect shorter => ?_
    -- All clauses stand behind `select`, with sixteen steps more for the token that it took.
    generalize bound : afterSelect.length = size at shorter
    have expression (tokens : List Token) (few : tokens.length ≤ size) :
        Ends 1 tokens (disjunction source budget tokens) :=
      disjunction_ends budget tokens (by omega)
    have expressions (tokens : List Token) (few : tokens.length ≤ size) :
        Ends 1 tokens (commaSeparated (disjunction source budget) budget tokens) :=
      commaSeparated_ends expression few (by omega)
    have orders (tokens : List Token) (few : tokens.length ≤ size) :
        Ends 1 tokens (commaSeparated (orderItem source budget) budget tokens) :=
      commaSeparated_ends (fun inner few => orderItem_ends budget inner (by omega)) few (by omega)
    have items (tokens : List Token) (few : tokens.length ≤ size) :
        Ends 1 tokens (commaSeparated (selectItem source budget) budget tokens) :=
      commaSeparated_ends (fun inner few => selectItem_ends budget inner (by omega)) few (by omega)
    have sources (tokens : List Token) (few : tokens.length ≤ size) :
        Ends 1 tokens (commaSeparated fromItem budget tokens) :=
      commaSeparated_ends (fun inner _ => fromItem_ends inner) few (by omega)
    have suffix := skipWord_suffix "distinct" afterSelect
    have few := suffix.length_le
    refine Ends.behind suffix few ?_
    refine ((items _ (by omega)).bind fun items rest few => ?_).weaken
    refine ((expectWord_ends "from" rest).bind fun _ rest few => ?_).weaken
    refine ((sources rest (by omega)).bind fun sources rest few => ?_).weaken
    refine (optional_ends "where" expression (by omega)).bind fun condition rest few => ?_
    refine (optionalList_ends "group" expressions (by omega)).bind fun groupBy rest few => ?_
    refine (optional_ends "having" expression (by omega)).bind fun having rest few => ?_
    refine (optionalList_ends "order" orders (by omega)).bind fun orderBy rest few => ?_
    exact .ok ..

theorem selectItem_ends : ∀ budget tokens, 16 * tokens.length + 12 ≤ budget →
    Ends 1 tokens (selectItem source budget tokens)
  | 0, tokens, enough => by omega
  | budget + 1, tokens, enough => by
    rw [selectItem]
    refine (disjunction_ends budget tokens (by omega)).bind fun expression rest _ => ?_
    refine Ends.bind (optional_ends "as"
      (fun inner _ => identifier_ends inner) (Nat.le_refl _)) ?_
    exact fun label rest _ => .ok ..

theorem orderItem_ends : ∀ budget tokens, 16 * tokens.length + 12 ≤ budget →
    Ends 1 tokens (orderItem source budget tokens)
  | 0, tokens, enough => by omega
  | budget + 1, tokens, enough => by
    rw [orderItem]
    refine (disjunction_ends budget tokens (by omega)).bind fun expression rest _ => ?_
    have suffix := direction_suffix rest
    exact (Ends.ok _ _).behind suffix suffix.length_le

end

end Forms

end Grammar

end ObjectQuery
