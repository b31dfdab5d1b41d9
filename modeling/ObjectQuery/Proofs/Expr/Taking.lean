import ObjectQuery.Proofs.Expr.Apart
import ObjectQuery.Proofs.Expr.Budget
import ObjectQuery.Proofs.Expr.Levels
import ObjectQuery.Proofs.Expr.Matching

/-!
Contract: what a form can take from the tokens of a printed value.

A printed value is looked at from both sides: when the form reads the value back, and what else the
form can make of its tokens. Of most forms it is known how many tokens they take in any case; a
disjunction inside parentheses may stop early where it takes the tokens for something else.

Owns:
- `Takes`, by which every result of a form takes some tokens and no others, at each level;
- `Rereads` and `Retakes`, the tokens of a value, with their laws;
- forms between two parentheses, which end at the one that closes the first one.

Does not own: operands and operators.
-/

namespace ObjectQuery

/-- The second tree is the first one only if that is sheltered at every depth. -/
def Expr.Faithful (e found : Expr) : Prop :=
  found = e → e.Everywhere Expr.Shelters

/-- A node made of two trees, each faithful to an operand. -/
def Expr.FaithfulPair (join : Expr → Expr → Expr) (left right found : Expr) : Prop :=
  ∃ foundLeft foundRight, found = join foundLeft foundRight ∧ left.Faithful foundLeft ∧
    right.Faithful foundRight

/-- A node made of one tree that is faithful to the operand. -/
def Expr.FaithfulPart (make : Expr → Expr) (operand found : Expr) : Prop :=
  ∃ foundOperand, found = make foundOperand ∧ operand.Faithful foundOperand

namespace Grammar

variable {α : Type} {source : List Char} {token : Token} {tokens rest : List Token}
variable {cost level : Nat} {e : Expr} {good : Expr → Prop}

/-- The tokens that are left are these, and the value is good. -/
def Leaves (rest : List Token) (good : α → Prop) (value : α) (remaining : List Token) : Prop :=
  remaining = rest ∧ good value

/-- On every budget, a result of the form takes the tokens in front of `rest` and no others, and is
good. -/
def Takes
    (form : Nat → List Token → Except Stop (α × List Token))
    (tokens : List Token)
    (good : α → Prop)
    (rest : List Token) : Prop :=
  ∀ budget, Shows (Leaves rest good) (form budget (tokens ++ rest))

/-! ### Tokens of a value -/

section Values

variable {form : Nat → List Token → Except Stop (α × List Token)} {value : α} {sheltered : Prop}

/-- The tokens are those of the value: the form reads it from them just when it is sheltered. Where
the form takes them for another value, it may take others than these. -/
structure Rereads
    (form : Nat → List Token → Except Stop (α × List Token))
    (cost : Nat)
    (tokens : List Token)
    (value : α)
    (sheltered : Prop)
    (rest : List Token) : Prop where
  matched : Matched (tokens ++ rest) rest
  reads : sheltered → Reads form cost tokens value rest
  only : ∀ budget remaining, form budget (tokens ++ rest) = .ok (value, remaining) →
    remaining = rest ∧ sheltered

/-- The tokens are those of the value: the form takes all of them or fails, and reads the value from
them just when it is sheltered. -/
structure Retakes
    (form : Nat → List Token → Except Stop (α × List Token))
    (cost : Nat)
    (tokens : List Token)
    (value : α)
    (sheltered : Prop)
    (rest : List Token) : Prop where
  matched : Matched (tokens ++ rest) rest
  reads : sheltered → Reads form cost tokens value rest
  takes : Takes form tokens (fun found => found = value → sheltered) rest

theorem Reads.matched
    (reads : Reads form cost tokens value rest)
    (matching : ∀ budget tokens, Matches tokens (form budget tokens)) :
    Matched (tokens ++ rest) rest := by
  have matches' := matching cost (tokens ++ rest)
  rwa [reads cost (Nat.le_refl cost)] at matches'

/-- Two budgets do not read different things. -/
theorem Reads.unique
    {budget : Nat}
    {found : α}
    {remaining : List Token}
    (reads : Reads form cost tokens value rest)
    (step : ∀ budget, Extends (form budget (tokens ++ rest)) (form (budget + 1) (tokens ++ rest)))
    (read : form budget (tokens ++ rest) = .ok (found, remaining)) :
    found = value ∧ remaining = rest := by
  have settled : form budget (tokens ++ rest) ≠ .error .outOfBudget := by simp [read]
  have same := Extends.eq_of_le step settled (Nat.le_max_left budget cost)
  rw [reads _ (Nat.le_max_right budget cost), read] at same
  obtain ⟨rfl, rfl⟩ := Prod.mk.inj (Except.ok.inj same)
  exact ⟨rfl, rfl⟩

theorem Rereads.mono
    {higher : Nat}
    (rereads : Rereads form cost tokens value sheltered rest)
    (ordered : cost ≤ higher) :
    Rereads form higher tokens value sheltered rest where
  matched := rereads.matched
  reads holds := (rereads.reads holds).mono ordered
  only := rereads.only

theorem Retakes.mono
    {higher : Nat}
    (retakes : Retakes form cost tokens value sheltered rest)
    (ordered : cost ≤ higher) :
    Retakes form higher tokens value sheltered rest where
  matched := retakes.matched
  reads holds := (retakes.reads holds).mono ordered
  takes := retakes.takes

theorem Retakes.congr
    {other : Prop}
    (retakes : Retakes form cost tokens value sheltered rest)
    (same : sheltered ↔ other) :
    Retakes form cost tokens value other rest :=
  propext same ▸ retakes

/-- What is read in any case, and has nothing to shelter. -/
theorem Retakes.of_reads
    (matching : ∀ budget tokens, Matches tokens (form budget tokens))
    (step : ∀ budget, Extends (form budget (tokens ++ rest)) (form (budget + 1) (tokens ++ rest)))
    (holds : sheltered)
    (reads : Reads form cost tokens value rest) :
    Retakes form cost tokens value sheltered rest where
  matched := reads.matched matching
  reads _ := reads
  takes _ _ _ read := ⟨(reads.unique step read).2, fun _ => holds⟩

/-- What is read on every budget, and has nothing to shelter. -/
theorem Rereads.of_reads
    (matched : Matched (tokens ++ rest) rest)
    (holds : sheltered)
    (reads : ∀ budget, form budget (tokens ++ rest) = .ok (value, rest)) :
    Rereads form cost tokens value sheltered rest where
  matched := matched
  reads _ budget _ := reads budget
  only budget remaining read := by
    obtain ⟨-, rfl⟩ := Prod.mk.inj (Except.ok.inj ((reads budget).symm.trans read))
    exact ⟨rfl, holds⟩

section Steps

variable {outer : Nat → List Token → Except Stop (α × List Token)} {outerTokens : List Token}

/-- One form that reads as another one does on one step less. -/
theorem Rereads.succ
    (exhausted : ∀ tokens, outer 0 tokens = .error .outOfBudget)
    (step : ∀ budget, outer (budget + 1) (outerTokens ++ rest) = form budget (tokens ++ rest))
    (ahead : Matched (outerTokens ++ rest) (tokens ++ rest))
    (rereads : Rereads form cost tokens value sheltered rest) :
    Rereads outer (cost + 1) outerTokens value sheltered rest where
  matched := ahead.trans rereads.matched
  reads holds budget enough := by
    obtain ⟨budget, rfl⟩ := Nat.exists_eq_add_of_le' (Nat.le_trans (Nat.le_add_left 1 cost) enough)
    rw [step]
    exact rereads.reads holds budget (by omega)
  only budget remaining read := by
    cases budget with
    | zero =>
      rw [exhausted] at read
      cases read
    | succ budget =>
      rw [step] at read
      exact rereads.only budget remaining read

theorem Retakes.succ
    (exhausted : ∀ tokens, outer 0 tokens = .error .outOfBudget)
    (step : ∀ budget, outer (budget + 1) (outerTokens ++ rest) = form budget (tokens ++ rest))
    (ahead : Matched (outerTokens ++ rest) (tokens ++ rest))
    (retakes : Retakes form cost tokens value sheltered rest) :
    Retakes outer (cost + 1) outerTokens value sheltered rest where
  matched := ahead.trans retakes.matched
  reads holds budget enough := by
    obtain ⟨budget, rfl⟩ := Nat.exists_eq_add_of_le' (Nat.le_trans (Nat.le_add_left 1 cost) enough)
    rw [step]
    exact retakes.reads holds budget (by omega)
  takes budget := by
    cases budget with
    | zero =>
      rw [exhausted]
      exact .stop _
    | succ budget =>
      rw [step]
      exact retakes.takes budget

/-- A form that makes something of what another one reads behind some tokens. -/
theorem Rereads.map
    {β : Type}
    {outer : Nat → List Token → Except Stop (β × List Token)}
    (make : α → β)
    (front : List Token)
    (injective : Function.Injective make)
    (step : ∀ budget, outer budget (front ++ (tokens ++ rest)) = do
      let (value, rest) ← form budget (tokens ++ rest)
      pure (make value, rest))
    (ahead : Matched (front ++ (tokens ++ rest)) (tokens ++ rest))
    (rereads : Rereads form cost tokens value sheltered rest) :
    Rereads outer cost (front ++ tokens) (make value) sheltered rest := by
  refine ⟨?_, ?_, ?_⟩
  · rw [List.append_assoc]
    exact ahead.trans rereads.matched
  · intro holds budget enough
    rw [List.append_assoc, step, rereads.reads holds budget enough]
    rfl
  · intro budget remaining read
    rw [List.append_assoc, step] at read
    obtain ⟨⟨found, behind⟩, readFound, equal⟩ := bind_eq_ok.mp read
    obtain ⟨same, rfl⟩ := Prod.mk.inj (Except.ok.inj equal)
    obtain rfl := injective same
    exact rereads.only budget behind readFound

/-- A form that reads something fixed behind another one. -/
theorem Rereads.behind
    {β γ : Type}
    {outer : Nat → List Token → Except Stop (γ × List Token)}
    {make : α → β → γ}
    {addition : β}
    (next : List Token → Except Stop (β × List Token))
    (behind : List Token)
    (injective : ∀ value addition value' addition',
      make value addition = make value' addition' → value = value')
    (exhausted : ∀ tokens, outer 0 tokens = .error .outOfBudget)
    (step : ∀ budget tokens, outer (budget + 1) tokens = do
      let (value, rest) ← form budget tokens
      let (addition, rest) ← next rest
      pure (make value addition, rest))
    (readNext : next (behind ++ rest) = .ok (addition, rest))
    (matched : Matched (behind ++ rest) rest)
    (rereads : Rereads form cost tokens value sheltered (behind ++ rest)) :
    Rereads outer (cost + 1) (tokens ++ behind) (make value addition) sheltered rest := by
  refine ⟨?_, ?_, ?_⟩
  · rw [List.append_assoc]
    exact rereads.matched.trans matched
  · intro holds budget enough
    obtain ⟨budget, rfl⟩ := Nat.exists_eq_add_of_le' (Nat.le_trans (Nat.le_add_left 1 cost) enough)
    rw [List.append_assoc, step, rereads.reads holds budget (by omega)]
    simp only [ok_bind, readNext, pure_eq_ok]
  · intro budget remaining read
    rw [List.append_assoc] at read
    cases budget with
    | zero =>
      rw [exhausted] at read
      cases read
    | succ budget =>
      rw [step] at read
      obtain ⟨⟨found, behindFound⟩, readFound, readOthers⟩ := bind_eq_ok.mp read
      obtain ⟨⟨addition', behindAddition⟩, readAddition, equal⟩ := bind_eq_ok.mp readOthers
      obtain ⟨same, rfl⟩ := Prod.mk.inj (Except.ok.inj equal)
      obtain rfl := injective _ _ _ _ same
      obtain ⟨rfl, holds⟩ := rereads.only budget behindFound readFound
      obtain ⟨-, rfl⟩ := Prod.mk.inj (Except.ok.inj (readNext.symm.trans readAddition))
      exact ⟨rfl, holds⟩

/-- A form that makes something of what another one reads on one step less. -/
theorem Retakes.map
    {β : Type}
    {outer : Nat → List Token → Except Stop (β × List Token)}
    {make : α → β}
    (injective : Function.Injective make)
    (exhausted : ∀ tokens, outer 0 tokens = .error .outOfBudget)
    (step : ∀ budget, outer (budget + 1) (tokens ++ rest) = do
      let (value, rest) ← form budget (tokens ++ rest)
      pure (make value, rest))
    (retakes : Retakes form cost tokens value sheltered rest) :
    Retakes outer (cost + 1) tokens (make value) sheltered rest where
  matched := retakes.matched
  reads holds budget enough := by
    obtain ⟨budget, rfl⟩ := Nat.exists_eq_add_of_le' (Nat.le_trans (Nat.le_add_left 1 cost) enough)
    rw [step, retakes.reads holds budget (by omega)]
    rfl
  takes budget := by
    cases budget with
    | zero =>
      rw [exhausted]
      exact .stop _
    | succ budget =>
      rw [step]
      refine (retakes.takes budget).bind ?_
      rintro found _ ⟨rfl, holds⟩
      exact .ok ⟨rfl, fun same => holds (injective same)⟩

end Steps

end Values

/-! ### Operators of one level -/

section Joined

variable {operator? : Token → Option (Expr → Expr → Expr)}
variable {operand : List Token → Except Stop (Expr × List Token)}
variable {join : Expr → Expr → Expr} {left right : Expr}

theorem chain_leaves
    (ofLeft : good left)
    (stops : ∀ token ∈ rest.head?, operator? token = none)
    (budget : Nat) :
    Shows (Leaves rest good) (chain operator? operand budget left rest) := by
  cases budget with
  | zero => exact .stop _
  | succ budget =>
    rw [chain_stops stops]
    exact .ok ⟨rfl, ofLeft⟩

theorem joined_leaves
    (first : Shows (Leaves rest good) (operand tokens))
    (stops : ∀ token ∈ rest.head?, operator? token = none)
    (budget : Nat) :
    Shows (Leaves rest good) (joined operator? operand budget tokens) := by
  refine first.bind ?_
  rintro left _ ⟨rfl, ofLeft⟩
  exact chain_leaves ofLeft stops budget

theorem joined_leaves_pair
    {behind : List Token}
    (first : Shows (Leaves (token :: behind) left.Faithful) (operand tokens))
    (joins : operator? token = some join)
    (second : Shows (Leaves rest right.Faithful) (operand behind))
    (stops : ∀ token ∈ rest.head?, operator? token = none)
    (budget : Nat) :
    Shows (Leaves rest (Expr.FaithfulPair join left right))
      (joined operator? operand budget tokens) := by
  refine first.bind ?_
  rintro foundLeft _ ⟨rfl, ofLeft⟩
  cases budget with
  | zero => exact .stop _
  | succ budget =>
    simp only [chain, joins]
    refine second.bind ?_
    rintro foundRight _ ⟨rfl, ofRight⟩
    exact chain_leaves ⟨foundLeft, foundRight, rfl, ofLeft, ofRight⟩ stops budget

end Joined

/-! ### From one level to the next -/

theorem unary_takes
    {first : Token}
    {others : List Token}
    (takes : Takes (primary source) (first :: others) good rest)
    (noMinus : first.kind ≠ .minus) :
    Takes (unary source) (first :: others) good rest := by
  intro budget
  cases budget with
  | zero => exact .stop _
  | succ budget =>
    rw [List.cons_append, unary, if_neg noMinus]
    exact takes budget

theorem product_takes
    (takes : Takes (unary source) tokens good rest)
    (follows : ∀ token ∈ rest.head?, token.Follows 5) :
    Takes (product source) tokens good rest := by
  intro budget
  cases budget with
  | zero => exact .stop _
  | succ budget =>
    rw [product]
    exact joined_leaves (takes budget)
      (fun token head => productOperator?_eq_none (follows token head).1.ne) budget

theorem sum_takes
    (takes : Takes (product source) tokens good rest)
    (follows : ∀ token ∈ rest.head?, token.Follows 4) :
    Takes (sum source) tokens good rest := by
  intro budget
  cases budget with
  | zero => exact .stop _
  | succ budget =>
    rw [sum]
    exact joined_leaves (takes budget)
      (fun token head => sumOperator?_eq_none (follows token head).1.ne) budget

theorem comparison_takes
    (takes : Takes (sum source) tokens good rest)
    (follows : ∀ token ∈ rest.head?, token.Follows 3) :
    Takes (comparison source) tokens good rest := by
  intro budget
  cases budget with
  | zero => exact .stop _
  | succ budget =>
    have notIs := startsWithWord_eq_false follows "is" (by simp)
    have notNot := startsWithWord_eq_false follows "not" (by simp)
    rw [comparison]
    refine (takes budget).bind ?_
    rintro left _ ⟨rfl, ofLeft⟩
    simp only [notIs, notNot, Bool.false_and, Bool.false_eq_true, if_false]
    cases budget with
    | zero => exact .stop _
    | succ budget =>
      rw [comparisonTail_stops follows]
      exact .ok ⟨rfl, ofLeft⟩

theorem negation_takes
    {first : Token}
    {others : List Token}
    (takes : Takes (comparison source) (first :: others) good rest)
    (noBang : first.kind ≠ .bang)
    (noNot : first.isWord "not" = false) :
    Takes (negation source) (first :: others) good rest := by
  intro budget
  cases budget with
  | zero => exact .stop _
  | succ budget =>
    rw [List.cons_append, negation, noNot]
    simp only [beq_eq_false_iff_ne.mpr noBang, Bool.or_self, Bool.false_eq_true, if_false]
    exact takes budget

theorem conjunction_takes
    (takes : Takes (negation source) tokens good rest)
    (follows : ∀ token ∈ rest.head?, token.Follows 2) :
    Takes (conjunction source) tokens good rest := by
  intro budget
  cases budget with
  | zero => exact .stop _
  | succ budget =>
    rw [conjunction]
    exact joined_leaves (takes budget)
      (fun token head => andOperator?_eq_none (follows token head).1.ne) budget

theorem disjunction_takes
    (takes : Takes (conjunction source) tokens good rest)
    (follows : ∀ token ∈ rest.head?, token.Follows 1) :
    Takes (disjunction source) tokens good rest := by
  intro budget
  cases budget with
  | zero => exact .stop _
  | succ budget =>
    rw [disjunction]
    exact joined_leaves (takes budget)
      (fun token head => orOperator?_eq_none (follows token head).1.ne) budget

theorem disjunction_takes_comparison
    {first : Token}
    {others : List Token}
    (takes : Takes (comparison source) (first :: others) good rest)
    (noBang : first.kind ≠ .bang)
    (noNot : first.isWord "not" = false)
    (follows : ∀ token ∈ rest.head?, token.Follows 1) :
    Takes (disjunction source) (first :: others) good rest := by
  have negated := negation_takes takes noBang noNot
  have conjoined := conjunction_takes negated (Follows.mono (by decide) follows)
  exact disjunction_takes conjoined follows

theorem disjunction_takes_sum
    {first : Token}
    {others : List Token}
    (takes : Takes (sum source) (first :: others) good rest)
    (noBang : first.kind ≠ .bang)
    (noNot : first.isWord "not" = false)
    (follows : ∀ token ∈ rest.head?, token.Follows 1) :
    Takes (disjunction source) (first :: others) good rest :=
  disjunction_takes_comparison
    (comparison_takes takes (Follows.mono (by decide) follows)) noBang noNot follows

/-! ### Parentheses -/

section Parentheses

variable {β : Type} {opening closing : Token}

/-- What is read between parentheses ends at the one that closes the first one. -/
theorem Shows.enclosed
    {outcome : Except Stop (α × List Token)}
    {good : β → Prop}
    (result : α → β)
    (matched : Matched tokens (closing :: rest))
    (closes : closing.kind = .rightParen)
    (matching : Matches tokens outcome)
    (ofResult : ∀ value remaining, outcome = .ok (value, remaining) → good (result value)) :
    Shows (Leaves rest good) (do
      let (value, rest) ← outcome
      let (_, rest) ← expect .rightParen rest
      pure (result value, rest)) := by
  intro found remaining read
  obtain ⟨⟨value, behind⟩, readValue, readBehind⟩ := bind_eq_ok.mp read
  obtain ⟨⟨close, behindClose⟩, readClose, given⟩ := bind_eq_ok.mp readBehind
  obtain ⟨rfl, closes'⟩ := expect_eq_ok.mp readClose
  obtain ⟨rfl, rfl⟩ := Prod.mk.inj (Except.ok.inj given)
  have matched' : Matched tokens (close :: behindClose) := by
    rw [readValue] at matching
    exact matching
  exact ⟨(matched.closing_unique matched' closes closes').2.symm, ofResult value _ readValue⟩

/-- A form between two parentheses, and what is in front of them. -/
theorem Retakes.enclosed
    {inner : Nat → List Token → Except Stop (α × List Token)}
    {outer : Nat → List Token → Except Stop (β × List Token)}
    {value : α}
    {sheltered : Prop}
    {make : α → β}
    (front : List Token)
    (injective : Function.Injective make)
    (opens : opening.kind = .leftParen)
    (closes : closing.kind = .rightParen)
    (exhausted : ∀ tokens, outer 0 tokens = .error .outOfBudget)
    (step : ∀ budget, outer (budget + 1) (front ++ opening :: (tokens ++ closing :: rest)) = do
      let (value, rest) ← inner budget (tokens ++ closing :: rest)
      let (_, rest) ← expect .rightParen rest
      pure (make value, rest))
    (ahead : Matched (front ++ opening :: (tokens ++ closing :: rest))
      (opening :: (tokens ++ closing :: rest)))
    (matching : ∀ budget tokens, Matches tokens (inner budget tokens))
    (rereads : Rereads inner cost tokens value sheltered (closing :: rest)) :
    Retakes outer (cost + 1) (front ++ opening :: (tokens ++ [closing])) (make value) sheltered
      rest := by
  have arranged : front ++ opening :: (tokens ++ [closing]) ++ rest =
      front ++ opening :: (tokens ++ closing :: rest) := by simp
  refine ⟨?_, ?_, ?_⟩
  · rw [arranged]
    exact ahead.trans (Matched.enclosed opens rereads.matched closes)
  · intro holds budget enough
    obtain ⟨budget, rfl⟩ := Nat.exists_eq_add_of_le' (Nat.le_trans (Nat.le_add_left 1 cost) enough)
    have readClosing : expect .rightParen (closing :: rest) = .ok (closing, rest) :=
      expect_eq_ok.mpr ⟨rfl, closes⟩
    rw [arranged, step, rereads.reads holds budget (by omega)]
    simp only [ok_bind, readClosing, pure_eq_ok]
  · intro budget
    rw [arranged]
    cases budget with
    | zero =>
      rw [exhausted]
      exact .stop _
    | succ budget =>
      rw [step]
      refine Shows.enclosed make rereads.matched closes (matching budget _) ?_
      intro found remaining read same
      obtain rfl := injective same
      exact (rereads.only budget remaining read).2

theorem parenthesized_of_opening
    {item : List Token → Except Stop (α × List Token)}
    {tokens : List Token}
    (budget : Nat)
    (opens : opening.kind = .leftParen)
    (notClosing : startsWith .rightParen tokens = false) :
    Grammar.parenthesized item budget (opening :: tokens) = (do
      let (values, rest) ← commaSeparated item budget tokens
      let (_, rest) ← expect .rightParen rest
      pure (values, rest)) := by
  have readOpening : expect .leftParen (opening :: tokens) = .ok (opening, tokens) :=
    expect_eq_ok.mpr ⟨rfl, opens⟩
  rw [Grammar.parenthesized, readOpening, ok_bind]
  simp only [notClosing, Bool.false_eq_true, if_false]

/-- A list in parentheses, which ends at the one that closes the first one. -/
theorem Retakes.parenthesized
    {item : Nat → List Token → Except Stop (α × List Token)}
    {values : List α}
    {sheltered : Prop}
    (opens : opening.kind = .leftParen)
    (closes : closing.kind = .rightParen)
    (nonempty : ∃ first others, tokens = first :: others ∧ first.kind ≠ .rightParen)
    (matching : ∀ budget tokens, Matches tokens (item budget tokens))
    (rereads : Rereads (fun budget => commaSeparated (item budget) budget) cost tokens values sheltered
      (closing :: rest)) :
    Retakes (fun budget => parenthesized (item budget) budget) cost
      (opening :: (tokens ++ [closing])) values sheltered rest := by
  have arranged : opening :: (tokens ++ [closing]) ++ rest =
      opening :: (tokens ++ closing :: rest) := by simp
  have readClosing : expect .rightParen (closing :: rest) = .ok (closing, rest) :=
    expect_eq_ok.mpr ⟨rfl, closes⟩
  have notClosing : startsWith .rightParen (tokens ++ closing :: rest) = false := by
    obtain ⟨first, others, rfl, notClosing⟩ := nonempty
    simpa [startsWith] using notClosing
  refine ⟨?_, ?_, ?_⟩
  · rw [arranged]
    exact Matched.enclosed opens rereads.matched closes
  · intro holds budget enough
    dsimp only
    have read : commaSeparated (item budget) budget (tokens ++ closing :: rest) =
        .ok (values, closing :: rest) := rereads.reads holds budget enough
    rw [arranged, parenthesized_of_opening budget opens notClosing, read]
    simp only [ok_bind, readClosing, pure_eq_ok]
  · intro budget
    dsimp only
    rw [arranged, parenthesized_of_opening budget opens notClosing]
    refine Shows.enclosed id rereads.matched closes
      (commaSeparated_matches (matching budget) budget _) ?_
    rintro found remaining read rfl
    exact (rereads.only budget remaining read).2

end Parentheses

end Grammar

end ObjectQuery
