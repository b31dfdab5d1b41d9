import ObjectQuery.Proofs.Expr.Taking

/-!
Contract: what can be read where an operand is printed.

The tokens of a printed operand are a group: a primary that begins with them takes the whole group or
fails, whatever it takes the group for. In front of a token that binds more loosely every looser form
then stops there too, except that a conjunction takes a name that is spelled `not` for the word.

Owns:
- `IsGroup`, the tokens of an operand, from which a primary reads the operand back just when the
  operand is sheltered;
- what is read from one or two groups with an operator;
- a form in its own parentheses as a group.

Does not own: texts.
-/

namespace ObjectQuery

namespace Grammar

variable {source : List Char} {token : Token} {tokens rest : List Token} {cost : Nat} {e : Expr}

/-! ### Groups -/

/-- The tokens are those of the operand: a primary takes all of them or fails, and what it reads is
the operand just when the operand is sheltered. -/
structure IsGroup (source : List Char) (cost : Nat) (tokens : List Token) (e : Expr) : Prop where
  opens : ∃ first others, tokens = first :: others ∧ Opens e.opening? first
  positive : 0 < cost
  notShort : ∀ rest, (∀ token ∈ rest.head?, token.Follows 6) →
    startsShortQuery (tokens ++ rest) = false
  retakes : ∀ rest, (∀ token ∈ rest.head?, token.Follows 6) →
    Retakes (primary source) cost tokens e (e.Everywhere Expr.Shelters) rest

/-- A primary that is read back, and has nothing to shelter, is a group. -/
theorem IsPrimary.isGroup
    (isPrimary : IsPrimary source cost tokens e)
    (sheltered : e.Everywhere Expr.Shelters) :
    IsGroup source cost tokens e where
  opens := isPrimary.opens
  positive := isPrimary.positive
  notShort := isPrimary.notShort
  retakes rest follows := .of_reads primary_matches (fun budget => primary_extends budget _) sheltered
    (isPrimary.reads rest follows)

namespace IsGroup

theorem mono
    {higher : Nat}
    (isGroup : IsGroup source cost tokens e)
    (ordered : cost ≤ higher) :
    IsGroup source higher tokens e where
  opens := isGroup.opens
  positive := Nat.lt_of_lt_of_le isGroup.positive ordered
  notShort := isGroup.notShort
  retakes rest follows := (isGroup.retakes rest follows).mono ordered

theorem isPrimary
    (isGroup : IsGroup source cost tokens e)
    (sheltered : e.Everywhere Expr.Shelters) :
    IsPrimary source cost tokens e where
  opens := isGroup.opens
  positive := isGroup.positive
  reads rest follows := (isGroup.retakes rest follows).reads sheltered
  notShort := isGroup.notShort

theorem unary
    (isGroup : IsGroup source cost tokens e)
    (follows : ∀ token ∈ rest.head?, token.Follows 6) :
    Takes (unary source) tokens e.Faithful rest := by
  have retakes := isGroup.retakes rest follows
  obtain ⟨first, others, rfl, opens⟩ := isGroup.opens
  exact unary_takes retakes.takes opens.noMinus

theorem product
    (isGroup : IsGroup source cost tokens e)
    (follows : ∀ token ∈ rest.head?, token.Follows 5) :
    Takes (product source) tokens e.Faithful rest :=
  product_takes (isGroup.unary (Follows.mono (by decide) follows)) follows

theorem sum
    (isGroup : IsGroup source cost tokens e)
    (follows : ∀ token ∈ rest.head?, token.Follows 4) :
    Takes (sum source) tokens e.Faithful rest :=
  sum_takes (isGroup.product (Follows.mono (by decide) follows)) follows

theorem negation
    (isGroup : IsGroup source cost tokens e)
    (apart : e.opening? ≠ some "not")
    (follows : ∀ token ∈ rest.head?, token.Follows 3) :
    Takes (negation source) tokens e.Faithful rest := by
  have summed := isGroup.sum (Follows.mono (by decide) follows)
  obtain ⟨first, others, rfl, opens⟩ := isGroup.opens
  exact negation_takes (comparison_takes summed follows) opens.noBang
    (opens.isWord_eq_false (by decide) apart)

theorem conjunction
    (isGroup : IsGroup source cost tokens e)
    (apart : e.opening? ≠ some "not")
    (follows : ∀ token ∈ rest.head?, token.Follows 2) :
    Takes (conjunction source) tokens e.Faithful rest :=
  conjunction_takes (isGroup.negation apart (Follows.mono (by decide) follows)) follows

theorem disjunction
    (isGroup : IsGroup source cost tokens e)
    (apart : e.opening? ≠ some "not")
    (follows : ∀ token ∈ rest.head?, token.Follows 1) :
    Takes (disjunction source) tokens e.Faithful rest :=
  disjunction_takes (isGroup.conjunction apart (Follows.mono (by decide) follows)) follows

theorem rereadsSum
    (isGroup : IsGroup source cost tokens e)
    (follows : ∀ token ∈ rest.head?, token.Follows 4) :
    Rereads (Grammar.sum source) (cost + 3) tokens e (e.Everywhere Expr.Shelters) rest where
  matched := (isGroup.retakes rest (Follows.mono (by decide) follows)).matched
  reads sheltered := (isGroup.isPrimary sheltered).sum follows
  only budget remaining read := by
    obtain ⟨left, faithful⟩ := isGroup.sum follows budget e remaining read
    exact ⟨left, faithful rfl⟩

/-- A disjunction reads the operand back just when the operand does not open with `not` either. -/
theorem rereadsDisjunction
    (isGroup : IsGroup source cost tokens e)
    (follows : ∀ token ∈ rest.head?, token.Follows 1) :
    Rereads (Grammar.disjunction source) (cost + 7) tokens e e.Sheltered rest where
  matched := (isGroup.retakes rest (Follows.mono (by decide) follows)).matched
  reads sheltered := (isGroup.isPrimary sheltered.2).disjunction sheltered.1 follows
  only budget remaining read := by
    have apart := (disjunction_apart budget _ e remaining read).1
    obtain ⟨left, faithful⟩ := isGroup.disjunction apart follows budget e remaining read
    exact ⟨left, apart, faithful rfl⟩

end IsGroup

/-! ### Operators between groups -/

section Pairs

variable {leftTokens rightTokens : List Token} {left right : Expr} {join : Expr → Expr → Expr}
variable (isLeft : IsGroup source cost leftTokens left)
variable (isRight : IsGroup source cost rightTokens right)

include isLeft isRight

theorem sum_takes_pair
    (joins : sumOperator? token = some join)
    (between : token.Follows 5)
    (follows : ∀ token ∈ rest.head?, token.Follows 4) :
    Takes (sum source) (leftTokens ++ token :: rightTokens) (Expr.FaithfulPair join left right)
      rest := by
  intro budget
  cases budget with
  | zero => exact .stop _
  | succ budget =>
    have ofLeft := isLeft.product (Follows.head between (rightTokens ++ rest)) budget
    have ofRight := isRight.product (Follows.mono (by decide) follows) budget
    rw [sum, List.append_assoc, List.cons_append]
    exact joined_leaves_pair ofLeft joins ofRight
      (fun token head => sumOperator?_eq_none (follows token head).1.ne) budget

theorem product_takes_pair
    (joins : productOperator? token = some join)
    (between : token.Follows 6)
    (follows : ∀ token ∈ rest.head?, token.Follows 5) :
    Takes (product source) (leftTokens ++ token :: rightTokens) (Expr.FaithfulPair join left right)
      rest := by
  intro budget
  cases budget with
  | zero => exact .stop _
  | succ budget =>
    have ofLeft := isLeft.unary (Follows.head between (rightTokens ++ rest)) budget
    have ofRight := isRight.unary (Follows.mono (by decide) follows) budget
    rw [product, List.append_assoc, List.cons_append]
    exact joined_leaves_pair ofLeft joins ofRight
      (fun token head => productOperator?_eq_none (follows token head).1.ne) budget

theorem conjunction_takes_pair
    (apart : left.opening? ≠ some "not" ∧ right.opening? ≠ some "not")
    (joins : andOperator? token = some join)
    (between : token.Follows 3)
    (follows : ∀ token ∈ rest.head?, token.Follows 2) :
    Takes (conjunction source) (leftTokens ++ token :: rightTokens)
      (Expr.FaithfulPair join left right) rest := by
  intro budget
  cases budget with
  | zero => exact .stop _
  | succ budget =>
    have ofLeft := isLeft.negation apart.1 (Follows.head between (rightTokens ++ rest)) budget
    have ofRight := isRight.negation apart.2 (Follows.mono (by decide) follows) budget
    rw [conjunction, List.append_assoc, List.cons_append]
    exact joined_leaves_pair ofLeft joins ofRight
      (fun token head => andOperator?_eq_none (follows token head).1.ne) budget

theorem disjunction_takes_pair
    (apart : left.opening? ≠ some "not" ∧ right.opening? ≠ some "not")
    (joins : orOperator? token = some join)
    (between : token.Follows 2)
    (follows : ∀ token ∈ rest.head?, token.Follows 1) :
    Takes (disjunction source) (leftTokens ++ token :: rightTokens)
      (Expr.FaithfulPair join left right) rest := by
  intro budget
  cases budget with
  | zero => exact .stop _
  | succ budget =>
    have ofLeft := isLeft.conjunction apart.1 (Follows.head between (rightTokens ++ rest)) budget
    have ofRight := isRight.conjunction apart.2 (Follows.mono (by decide) follows) budget
    rw [disjunction, List.append_assoc, List.cons_append]
    exact joined_leaves_pair ofLeft joins ofRight
      (fun token head => orOperator?_eq_none (follows token head).1.ne) budget

theorem comparison_takes_pair
    {op : RelationalOp}
    (compares : comparison? token = some op)
    (between : token.Follows 4)
    (otherWord : token.isWord "is" = false ∧ token.isWord "not" = false ∧
      token.isWord "in" = false)
    (follows : ∀ token ∈ rest.head?, token.Follows 3) :
    Takes (comparison source) (leftTokens ++ token :: rightTokens)
      (Expr.FaithfulPair (.relational op) left right) rest := by
  intro budget
  cases budget with
  | zero => exact .stop _
  | succ budget =>
    obtain ⟨notIs, notNot, notIn⟩ := otherWord
    rw [comparison, List.append_assoc, List.cons_append]
    refine (isLeft.sum (Follows.head between (rightTokens ++ rest)) budget).bind ?_
    rintro foundLeft _ ⟨rfl, ofLeft⟩
    simp only [startsWithWord, notIs, notNot, Bool.false_and, Bool.false_eq_true, if_false]
    cases budget with
    | zero => exact .stop _
    | succ budget =>
      rw [comparisonTail, notIn, compares]
      simp only [Bool.false_eq_true, if_false]
      refine (isRight.sum (Follows.mono (by decide) follows) budget).bind ?_
      rintro foundRight _ ⟨rfl, ofRight⟩
      exact .ok ⟨rfl, foundLeft, foundRight, rfl, ofLeft, ofRight⟩

/-! ### What is read back from two groups -/

theorem pair_matched
    (between : token.Follows 6)
    (noClosing : token.kind ≠ .rightParen)
    (follows : ∀ token ∈ rest.head?, token.Follows 6) :
    Matched (leftTokens ++ token :: rightTokens ++ rest) rest := by
  have ofLeft := (isLeft.retakes _ (Follows.head between (rightTokens ++ rest))).matched
  rw [List.append_assoc, List.cons_append]
  exact (ofLeft.trans (.skip between.2.2.1 noClosing)).trans (isRight.retakes rest follows).matched

theorem rereads_and
    (joins : andOperator? token = some .and)
    (between : token.Follows 3)
    (noClosing : token.kind ≠ .rightParen)
    (follows : ∀ token ∈ rest.head?, token.Follows 1) :
    Rereads (disjunction source) (cost + 7) (leftTokens ++ token :: rightTokens) (.and left right)
      ((left.opening? ≠ some "not" ∧ right.opening? ≠ some "not") ∧
        left.Everywhere Expr.Shelters ∧ right.Everywhere Expr.Shelters) rest where
  matched := pair_matched isLeft isRight (between.mono (by decide)) noClosing
    (Follows.mono (by decide) follows)
  reads := by
    rintro ⟨apart, ofLeft, ofRight⟩
    have conjoined := conjunction_pair (isLeft.isPrimary ofLeft) (isRight.isPrimary ofRight) apart
      joins between (Follows.mono (by decide) follows)
    exact disjunction_of_conjunction conjoined (by omega) follows
  only budget remaining read := by
    have apart := (disjunction_apart budget _ _ remaining read).2
    have conjoined := conjunction_takes_pair isLeft isRight apart joins between
      (Follows.mono (by decide) follows)
    obtain ⟨stops, _, _, ⟨⟩, ofLeft, ofRight⟩ :=
      disjunction_takes conjoined follows budget _ remaining read
    exact ⟨stops, apart, ofLeft rfl, ofRight rfl⟩

theorem rereads_or
    (joins : orOperator? token = some .or)
    (between : token.Follows 2)
    (noClosing : token.kind ≠ .rightParen)
    (follows : ∀ token ∈ rest.head?, token.Follows 1) :
    Rereads (disjunction source) (cost + 7) (leftTokens ++ token :: rightTokens) (.or left right)
      ((left.opening? ≠ some "not" ∧ right.opening? ≠ some "not") ∧
        left.Everywhere Expr.Shelters ∧ right.Everywhere Expr.Shelters) rest where
  matched := pair_matched isLeft isRight (between.mono (by decide)) noClosing
    (Follows.mono (by decide) follows)
  reads := by
    rintro ⟨apart, ofLeft, ofRight⟩
    exact disjunction_pair (isLeft.isPrimary ofLeft) (isRight.isPrimary ofRight) apart joins between
      follows
  only budget remaining read := by
    have apart := (disjunction_apart budget _ _ remaining read).2
    have takes := disjunction_takes_pair isLeft isRight apart joins between follows
    obtain ⟨stops, _, _, ⟨⟩, ofLeft, ofRight⟩ := takes budget _ remaining read
    exact ⟨stops, apart, ofLeft rfl, ofRight rfl⟩

theorem rereads_relational
    {op : RelationalOp}
    (compares : comparison? token = some op)
    (between : token.Follows 4)
    (noClosing : token.kind ≠ .rightParen)
    (otherWord : token.isWord "is" = false ∧ token.isWord "not" = false ∧
      token.isWord "in" = false)
    (follows : ∀ token ∈ rest.head?, token.Follows 1) :
    Rereads (disjunction source) (cost + 8) (leftTokens ++ token :: rightTokens)
      (.relational op left right)
      (left.opening? ≠ some "not" ∧ left.Everywhere Expr.Shelters ∧ right.Everywhere Expr.Shelters)
      rest where
  matched := pair_matched isLeft isRight (between.mono (by decide)) noClosing
    (Follows.mono (by decide) follows)
  reads := by
    rintro ⟨apart, ofLeft, ofRight⟩
    have compared := comparison_pair (isLeft.isPrimary ofLeft) (isRight.isPrimary ofRight) compares
      between otherWord (Follows.mono (by decide) follows)
    obtain ⟨first, others, rfl, opens⟩ := isLeft.opens
    exact disjunction_of_comparison compared opens.noBang (opens.isWord_eq_false (by decide) apart)
      follows
  only budget remaining read := by
    have apart := (disjunction_apart budget _ _ remaining read).2
    have compared := comparison_takes_pair isLeft isRight compares between otherWord
      (Follows.mono (by decide) follows)
    obtain ⟨first, others, rfl, opens⟩ := isLeft.opens
    have takes := disjunction_takes_comparison compared opens.noBang
      (opens.isWord_eq_false (by decide) apart) follows
    obtain ⟨stops, _, _, ⟨⟩, ofLeft, ofRight⟩ := takes budget _ remaining read
    exact ⟨stops, apart, ofLeft rfl, ofRight rfl⟩

/-- Arithmetic, by the level that takes the operator. -/
theorem rereads_binary
    {op : ArithmeticOp}
    (between : token.Follows 6)
    (noClosing : token.kind ≠ .rightParen)
    (reads : left.Everywhere Expr.Shelters → right.Everywhere Expr.Shelters →
      Reads (sum source) (cost + 3) (leftTokens ++ token :: rightTokens) (.binary op left right) rest)
    (takes : Takes (sum source) (leftTokens ++ token :: rightTokens)
      (Expr.FaithfulPair (.binary op) left right) rest)
    (follows : ∀ token ∈ rest.head?, token.Follows 1) :
    Rereads (disjunction source) (cost + 7) (leftTokens ++ token :: rightTokens)
      (.binary op left right)
      (left.opening? ≠ some "not" ∧ left.Everywhere Expr.Shelters ∧ right.Everywhere Expr.Shelters)
      rest where
  matched := pair_matched isLeft isRight between noClosing (Follows.mono (by decide) follows)
  reads := by
    rintro ⟨apart, ofLeft, ofRight⟩
    have summed := reads ofLeft ofRight
    obtain ⟨first, others, rfl, opens⟩ := isLeft.opens
    exact disjunction_of_sum summed (by omega) opens.noBang (opens.isWord_eq_false (by decide) apart)
      follows
  only budget remaining read := by
    obtain ⟨first, others, rfl, opens⟩ := isLeft.opens
    have noNot : first.isWord "not" = false := by
      rw [Bool.eq_false_iff]
      exact fun isNot => disjunction_of_not isNot budget _ remaining read op left right rfl
    obtain ⟨stops, _, _, ⟨⟩, ofLeft, ofRight⟩ :=
      disjunction_takes_sum takes opens.noBang noNot follows budget _ remaining read
    exact ⟨stops, opens.apart (by decide) noNot, ofLeft rfl, ofRight rfl⟩

theorem rereads_binary_sum
    {op : ArithmeticOp}
    (joins : sumOperator? token = some (.binary op))
    (between : token.Follows 5)
    (noClosing : token.kind ≠ .rightParen)
    (follows : ∀ token ∈ rest.head?, token.Follows 1) :
    Rereads (disjunction source) (cost + 7) (leftTokens ++ token :: rightTokens)
      (.binary op left right)
      (left.opening? ≠ some "not" ∧ left.Everywhere Expr.Shelters ∧ right.Everywhere Expr.Shelters)
      rest := by
  have stops : ∀ token ∈ rest.head?, token.Follows 4 := Follows.mono (by decide) follows
  refine rereads_binary isLeft isRight (between.mono (by decide)) noClosing (fun ofLeft ofRight => ?_)
    (sum_takes_pair isLeft isRight joins between stops) follows
  exact sum_pair (isLeft.isPrimary ofLeft) (isRight.isPrimary ofRight) joins between stops

theorem rereads_binary_product
    {op : ArithmeticOp}
    (joins : productOperator? token = some (.binary op))
    (between : token.Follows 6)
    (noClosing : token.kind ≠ .rightParen)
    (follows : ∀ token ∈ rest.head?, token.Follows 1) :
    Rereads (disjunction source) (cost + 7) (leftTokens ++ token :: rightTokens)
      (.binary op left right)
      (left.opening? ≠ some "not" ∧ left.Everywhere Expr.Shelters ∧ right.Everywhere Expr.Shelters)
      rest := by
  have stops : ∀ token ∈ rest.head?, token.Follows 4 := Follows.mono (by decide) follows
  have multiplied := product_takes_pair isLeft isRight joins between (Follows.mono (by decide) stops)
  refine rereads_binary isLeft isRight between noClosing (fun ofLeft ofRight => ?_)
    (sum_takes multiplied stops) follows
  exact sum_of_product (product_pair (isLeft.isPrimary ofLeft) (isRight.isPrimary ofRight) joins
    between (Follows.mono (by decide) stops)) (by omega) stops

end Pairs

/-! ### Other comparisons and signs -/

theorem comparison_takes_nullTest
    {isToken nullToken : Token}
    {notTokens : List Token}
    {negated : Bool}
    (isGroup : IsGroup source cost tokens e)
    (isWord : isToken.isWord "is" = true)
    (between : isToken.Follows 4)
    (skips : skipWord "not" (notTokens ++ nullToken :: rest) = (negated, nullToken :: rest))
    (nullWord : nullToken.isWord "null" = true) :
    Takes (comparison source) (tokens ++ isToken :: (notTokens ++ [nullToken]))
      (Expr.FaithfulPart (.nullTest · negated) e) rest := by
  intro budget
  cases budget with
  | zero => exact .stop _
  | succ budget =>
    have readIs : expectWord "is" (isToken :: (notTokens ++ nullToken :: rest)) =
        .ok (isToken, notTokens ++ nullToken :: rest) := expectWord_eq_ok.mpr ⟨rfl, isWord⟩
    have readNull : expectWord "null" (nullToken :: rest) = .ok (nullToken, rest) :=
      expectWord_eq_ok.mpr ⟨rfl, nullWord⟩
    have arranged : tokens ++ isToken :: (notTokens ++ [nullToken]) ++ rest =
        tokens ++ isToken :: (notTokens ++ nullToken :: rest) := by simp
    rw [comparison, arranged]
    refine (isGroup.sum (Follows.head between (notTokens ++ nullToken :: rest)) budget).bind ?_
    rintro found _ ⟨rfl, ofFound⟩
    simp only [startsWithWord, isWord, if_true, readIs, ok_bind, skips, readNull]
    exact .ok ⟨rfl, found, rfl, ofFound⟩

theorem comparison_takes_oneOf
    {inToken : Token}
    {listTokens : List Token}
    {goodList : List Expr → Prop}
    (isGroup : IsGroup source cost tokens e)
    (isWord : inToken.isWord "in" = true)
    (between : inToken.Follows 4)
    (takesList : Takes (fun budget => parenthesized (sum source budget) budget) listTokens goodList
      rest) :
    Takes (comparison source) (tokens ++ inToken :: listTokens)
      (fun found => ∃ operand candidates, found = .oneOf operand candidates ∧ e.Faithful operand ∧
        goodList candidates) rest := by
  intro budget
  cases budget with
  | zero => exact .stop _
  | succ budget =>
    have lower := Token.lower_of_isWord isWord
    have notIs : inToken.isWord "is" = false := by simp [Token.isWord, lower]
    have notNot : inToken.isWord "not" = false := by simp [Token.isWord, lower]
    rw [comparison, List.append_assoc, List.cons_append]
    refine (isGroup.sum (Follows.head between (listTokens ++ rest)) budget).bind ?_
    rintro operand _ ⟨rfl, ofOperand⟩
    simp only [startsWithWord, notIs, notNot, Bool.false_and, Bool.false_eq_true, if_false]
    cases budget with
    | zero => exact .stop _
    | succ budget =>
      rw [comparisonTail, if_pos isWord]
      refine (takesList budget).bind ?_
      rintro candidates _ ⟨rfl, ofCandidates⟩
      exact .ok ⟨rfl, operand, candidates, rfl, ofOperand, ofCandidates⟩

theorem disjunction_takes_not
    {notToken : Token}
    (isGroup : IsGroup source cost tokens e)
    (apart : e.opening? ≠ some "not")
    (isWord : notToken.isWord "not" = true)
    (follows : ∀ token ∈ rest.head?, token.Follows 1) :
    Takes (disjunction source) (notToken :: tokens) (Expr.FaithfulPart .not e) rest := by
  have negated : Takes (negation source) (notToken :: tokens) (Expr.FaithfulPart .not e) rest := by
    intro budget
    cases budget with
    | zero => exact .stop _
    | succ budget =>
      rw [List.cons_append, negation, isWord, Bool.true_or, if_pos rfl]
      refine (isGroup.negation apart (Follows.mono (by decide) follows) budget).bind ?_
      rintro found _ ⟨rfl, ofFound⟩
      exact .ok ⟨rfl, found, rfl, ofFound⟩
  exact disjunction_takes (conjunction_takes negated (Follows.mono (by decide) follows)) follows

theorem disjunction_takes_negate
    {minusToken : Token}
    (isGroup : IsGroup source cost tokens e)
    (isMinus : minusToken.kind = .minus)
    (follows : ∀ token ∈ rest.head?, token.Follows 1) :
    Takes (disjunction source) (minusToken :: tokens) (Expr.FaithfulPart .negate e) rest := by
  have negated : Takes (unary source) (minusToken :: tokens) (Expr.FaithfulPart .negate e) rest := by
    intro budget
    cases budget with
    | zero => exact .stop _
    | succ budget =>
      rw [List.cons_append, unary, if_pos isMinus]
      refine (isGroup.unary (Follows.mono (by decide) follows) budget).bind ?_
      rintro found _ ⟨rfl, ofFound⟩
      exact .ok ⟨rfl, found, rfl, ofFound⟩
  have multiplied := product_takes negated (Follows.mono (by decide) follows)
  have summed := sum_takes multiplied (Follows.mono (by decide) follows)
  refine disjunction_takes_sum summed ?_ ?_ follows
  · rw [isMinus]
    decide
  · simp [Token.isWord, isMinus]

/-! ### What is read back from one group -/

theorem rereads_nullTest
    {isToken nullToken : Token}
    {notTokens : List Token}
    {negated : Bool}
    (isGroup : IsGroup source cost tokens e)
    (isWord : isToken.isWord "is" = true)
    (skips : skipWord "not" (notTokens ++ nullToken :: rest) = (negated, nullToken :: rest))
    (nullWord : nullToken.isWord "null" = true)
    (follows : ∀ token ∈ rest.head?, token.Follows 1) :
    Rereads (disjunction source) (cost + 7) (tokens ++ isToken :: (notTokens ++ [nullToken]))
      (.nullTest e negated) e.Sheltered rest := by
  have between : isToken.Follows 4 := Token.follows_of_isWord isWord (by decide) (by decide)
  refine ⟨?_, ?_, ?_⟩
  · have arranged : tokens ++ isToken :: (notTokens ++ [nullToken]) ++ rest =
        tokens ++ isToken :: (notTokens ++ nullToken :: rest) := by simp
    have ofGroup := (isGroup.retakes _ (Follows.head (between.mono (by decide))
      (notTokens ++ nullToken :: rest))).matched
    have behindNot := skipWord_matched "not" (notTokens ++ nullToken :: rest)
    rw [skips] at behindNot
    rw [arranged]
    exact ((ofGroup.trans (.skip_word (Token.kind_of_isWord isWord))).trans behindNot).trans
      (.skip_word (Token.kind_of_isWord nullWord))
  · rintro ⟨apart, holds⟩
    have tested := comparison_nullTest (isGroup.isPrimary holds) isWord between skips nullWord
    obtain ⟨first, others, rfl, opens⟩ := isGroup.opens
    exact disjunction_of_comparison tested opens.noBang (opens.isWord_eq_false (by decide) apart)
      follows
  · intro budget remaining read
    have apart := (disjunction_apart budget _ _ remaining read).2
    have tested := comparison_takes_nullTest isGroup isWord between skips nullWord
    obtain ⟨first, others, rfl, opens⟩ := isGroup.opens
    have takes := disjunction_takes_comparison tested opens.noBang
      (opens.isWord_eq_false (by decide) apart) follows
    obtain ⟨stops, _, ⟨⟩, faithful⟩ := takes budget _ remaining read
    exact ⟨stops, apart, faithful rfl⟩

theorem rereads_oneOf
    {inToken : Token}
    {listTokens : List Token}
    {candidates : List Expr}
    {sheltered : Prop}
    (isGroup : IsGroup source cost tokens e)
    (isWord : inToken.isWord "in" = true)
    (retakes : Retakes (fun budget => parenthesized (sum source budget) budget) cost listTokens
      candidates sheltered rest)
    (follows : ∀ token ∈ rest.head?, token.Follows 1) :
    Rereads (disjunction source) (cost + 8) (tokens ++ inToken :: listTokens)
      (.oneOf e candidates) (e.Sheltered ∧ sheltered) rest := by
  have between : inToken.Follows 4 := Token.follows_of_isWord isWord (by decide) (by decide)
  refine ⟨?_, ?_, ?_⟩
  · have ofGroup := (isGroup.retakes _ (Follows.head (between.mono (by decide))
      (listTokens ++ rest))).matched
    rw [List.append_assoc, List.cons_append]
    exact (ofGroup.trans (.skip_word (Token.kind_of_isWord isWord))).trans retakes.matched
  · rintro ⟨⟨apart, holds⟩, holdsList⟩
    have listed := comparison_oneOf (isGroup.isPrimary holds) isWord between (retakes.reads holdsList)
    obtain ⟨first, others, rfl, opens⟩ := isGroup.opens
    exact disjunction_of_comparison listed opens.noBang (opens.isWord_eq_false (by decide) apart)
      follows
  · intro budget remaining read
    have apart := (disjunction_apart budget _ _ remaining read).2
    have listed := comparison_takes_oneOf isGroup isWord between retakes.takes
    obtain ⟨first, others, rfl, opens⟩ := isGroup.opens
    have takes := disjunction_takes_comparison listed opens.noBang
      (opens.isWord_eq_false (by decide) apart) follows
    obtain ⟨stops, _, _, ⟨⟩, faithful, holdsList⟩ := takes budget _ remaining read
    exact ⟨stops, ⟨apart, faithful rfl⟩, holdsList rfl⟩

theorem rereads_not
    {notToken : Token}
    (isGroup : IsGroup source cost tokens e)
    (isWord : notToken.isWord "not" = true)
    (follows : ∀ token ∈ rest.head?, token.Follows 1) :
    Rereads (disjunction source) (cost + 8) (notToken :: tokens) (.not e) e.Sheltered rest where
  matched := (Matched.skip_word (Token.kind_of_isWord isWord)).trans
    (isGroup.retakes rest (Follows.mono (by decide) follows)).matched
  reads sheltered := disjunction_not (isGroup.isPrimary sheltered.2) sheltered.1 isWord follows
  only budget remaining read := by
    have apart := (disjunction_apart budget _ _ remaining read).2
    obtain ⟨stops, _, ⟨⟩, faithful⟩ :=
      disjunction_takes_not isGroup apart isWord follows budget _ remaining read
    exact ⟨stops, apart, faithful rfl⟩

theorem rereads_negate
    {minusToken : Token}
    (isGroup : IsGroup source cost tokens e)
    (isMinus : minusToken.kind = .minus)
    (follows : ∀ token ∈ rest.head?, token.Follows 1) :
    Rereads (disjunction source) (cost + 8) (minusToken :: tokens) (.negate e)
      (e.Everywhere Expr.Shelters) rest where
  matched := (Matched.skip (by simp [isMinus]) (by simp [isMinus])).trans
    (isGroup.retakes rest (Follows.mono (by decide) follows)).matched
  reads sheltered := disjunction_negate (isGroup.isPrimary sheltered) isMinus follows
  only budget remaining read := by
    obtain ⟨stops, _, ⟨⟩, faithful⟩ :=
      disjunction_takes_negate isGroup isMinus follows budget _ remaining read
    exact ⟨stops, faithful rfl⟩

/-! ### Parentheses -/

section Parentheses

variable {opening closing : Token}

theorem isGroup_parenthesized
    {body : Prop}
    (nameless : e.opening? = none)
    (noQuery : ∀ query, e ≠ .query query)
    (opensParen : opening.kind = .leftParen)
    (closesParen : closing.kind = .rightParen)
    (nonempty : tokens ≠ [])
    (rereads : ∀ rest, Rereads (disjunction source) cost tokens e body (closing :: rest))
    (sheltered : e.Everywhere Expr.Shelters ↔
      body ∧ ∀ token ∈ tokens.head?, token.isWord "select" = false) :
    IsGroup source (cost + 1) (opening :: (tokens ++ [closing])) e where
  opens := ⟨opening, _, rfl, nameless ▸ .of_leftParen opensParen⟩
  positive := Nat.succ_pos cost
  notShort rest follows := by simp [startsShortQuery, opensParen]
  retakes rest follows := by
    have matched := (rereads rest).matched
    have first : startsWithWord "select" (tokens ++ closing :: rest) = false ↔
        ∀ token ∈ tokens.head?, token.isWord "select" = false := by
      obtain ⟨first, others, rfl⟩ := List.exists_cons_of_ne_nil nonempty
      simp [startsWithWord]
    by_cases selects : startsWithWord "select" (tokens ++ closing :: rest) = true
    -- A query is looked for in the parentheses, and no other tree can come of it.
    · have arranged : opening :: (tokens ++ [closing]) ++ rest =
          opening :: (tokens ++ closing :: rest) := by simp
      refine ⟨?_, ?_, ?_⟩
      · rw [arranged]
        exact Matched.enclosed opensParen matched closesParen
      · intro holds
        rw [first.mpr (sheltered.mp holds).2] at selects
        cases selects
      · intro budget
        rw [arranged]
        cases budget with
        | zero => exact .stop _
        | succ budget =>
          rw [primary, opensParen]
          simp only [selects, if_true]
          refine Shows.enclosed Expr.query matched closesParen (select_matches budget _) ?_
          exact fun query _ _ isQuery => absurd isQuery.symm (noQuery query)
    · have noSelect := Bool.eq_false_iff.mpr selects
      have same : body ↔ e.Everywhere Expr.Shelters :=
        ⟨fun holds => sheltered.mpr ⟨holds, first.mp noSelect⟩, fun holds => (sheltered.mp holds).1⟩
      refine Retakes.congr (Retakes.enclosed [] Function.injective_id opensParen closesParen
        (fun _ => rfl) ?_ (.refl _) disjunction_matches (rereads rest)) same
      intro budget
      rw [List.nil_append, primary, opensParen]
      simp only [noSelect, Bool.false_eq_true, if_false]
      rfl

theorem isGroup_query
    {selectToken : Token}
    {others : List Token}
    {query : Query}
    (opensParen : opening.kind = .leftParen)
    (closesParen : closing.kind = .rightParen)
    (selects : selectToken.isWord "select" = true)
    (rereads : ∀ rest, Rereads (select source) cost (selectToken :: others) query query.Sheltered
      (closing :: rest)) :
    IsGroup source (cost + 1) (opening :: (selectToken :: others ++ [closing])) (.query query) where
  opens := ⟨opening, _, rfl, .of_leftParen opensParen⟩
  positive := Nat.succ_pos cost
  notShort rest follows := by simp [startsShortQuery, opensParen]
  retakes rest follows := by
    have injective : Function.Injective Expr.query := fun _ _ => Expr.query.inj
    have isSelect : startsWithWord "select" (selectToken :: others ++ closing :: rest) = true :=
      selects
    refine Retakes.enclosed [] injective opensParen closesParen (fun _ => rfl) ?_ (.refl _)
      select_matches (rereads rest)
    intro budget
    rw [List.nil_append, primary, opensParen]
    simp only [isSelect, if_true]

end Parentheses

end Grammar

end ObjectQuery
