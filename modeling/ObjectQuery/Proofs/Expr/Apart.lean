import ObjectQuery.Proofs.Expr.Shelter
import ObjectQuery.Proofs.Expr.Steps

/-!
Contract: operands that are read where `not` is looked for do not begin with it.

A negation looks for `not` in front of its comparison, so no tree that it yields opens with that name.
Sums and products do not look, so they may yield one, but only if `not` is their first token. What
is left out are the operands of arithmetic: nothing is looked for in front of a right one, and its
own left operand may open with `not`.

Owns:
- `Shows`, what is known of every result of a reading;
- `Expr.Apart`, and that the forms yield such trees;
- what a disjunction that begins with `not` does not yield.

Does not own: which texts are read.
-/

namespace ObjectQuery

/-- The operands in front of which `not` is looked for do not open with it. -/
def Expr.OperandsApart : Expr → Prop
  | .and left right | .or left right =>
    left.opening? ≠ some "not" ∧ right.opening? ≠ some "not"
  | .relational _ left _ => left.opening? ≠ some "not"
  | .not operand | .oneOf operand _ | .nullTest operand _ => operand.opening? ≠ some "not"
  | _ => True

/-- Neither the tree nor an operand in front of which `not` is looked for opens with it. -/
def Expr.Apart (e : Expr) : Prop :=
  e.opening? ≠ some "not" ∧ e.OperandsApart

namespace Grammar

variable {α β : Type} {source : List Char} {tokens rest : List Token} {token : Token}

/-- Every result of the reading has the property, together with the tokens that are left. -/
def Shows (property : α → List Token → Prop) (outcome : Except Stop (α × List Token)) : Prop :=
  ∀ value rest, outcome = .ok (value, rest) → property value rest

namespace Shows

variable {property : α → List Token → Prop} {outcome : Except Stop (α × List Token)}

theorem ok {value : α} (holds : property value rest) : Shows property (.ok (value, rest)) := by
  rintro _ _ ⟨⟩
  exact holds

theorem stop (stop : Stop) : Shows property (.error stop) := by
  rintro _ _ ⟨⟩

theorem mono
    {weaker : α → List Token → Prop}
    (shows' : Shows property outcome)
    (implies : ∀ value rest, property value rest → weaker value rest) :
    Shows weaker outcome :=
  fun value rest read => implies value rest (shows' value rest read)

theorem bind
    {further : β → List Token → Prop}
    {next : α × List Token → Except Stop (β × List Token)}
    (first : Shows property outcome)
    (second : ∀ value rest, property value rest → Shows further (next (value, rest))) :
    Shows further (outcome >>= next) := by
  intro result last read
  obtain ⟨⟨value, rest⟩, readFirst, readSecond⟩ := bind_eq_ok.mp read
  exact second value rest (first value rest readFirst) result last readSecond

/-- A first step of which nothing is needed. -/
theorem behind
    {further : β → List Token → Prop}
    {next : α × List Token → Except Stop (β × List Token)}
    (second : ∀ value rest, Shows further (next (value, rest))) :
    Shows further (outcome >>= next) := by
  have first : Shows (fun _ _ => True) outcome := fun _ _ _ => trivial
  exact first.bind fun value rest _ => second value rest

end Shows

/-! ### Operators of one level -/

section Operators

variable {first : Expr → Prop} (each : Expr → Prop) {operator? : Token → Option (Expr → Expr → Expr)}
variable {operand : List Token → Except Stop (Expr × List Token)}

theorem chain_shows
    (ofEach : ∀ tokens, Shows (fun e _ => each e) (operand tokens))
    (joins : ∀ token join left right, operator? token = some join → first left → each right →
      first (join left right))
    (budget : Nat)
    {left : Expr}
    (ofLeft : first left)
    (tokens : List Token) :
    Shows (fun e _ => first e) (chain operator? operand budget left tokens) := by
  induction budget generalizing left tokens with
  | zero => exact .stop _
  | succ budget inductionHypothesis =>
    cases tokens with
    | nil => exact .ok ofLeft
    | cons token rest =>
      rw [chain]
      split
      · exact .ok ofLeft
      · rename_i join isOperator
        refine (ofEach rest).bind fun right rest ofRight => ?_
        exact inductionHypothesis (joins token join left right isOperator ofLeft ofRight) rest

/-- What holds of the first operand, and passes from the operands to what joins them, holds of the
result. -/
theorem joined_shows
    (ofFirst : Shows (fun e _ => first e) (operand tokens))
    (ofEach : ∀ tokens, Shows (fun e _ => each e) (operand tokens))
    (joins : ∀ token join left right, operator? token = some join → first left → each right →
      first (join left right))
    (budget : Nat) :
    Shows (fun e _ => first e) (joined operator? operand budget tokens) :=
  ofFirst.bind fun _ rest ofLeft => chain_shows each ofEach joins budget ofLeft rest

end Operators

/-! ### Forms -/

/-- The tree opens with `not` only if that is the first token, and its operands are apart. -/
def LedBy (tokens : List Token) (e : Expr) : Prop :=
  (e.opening? = some "not" → startsWithWord "not" tokens = true) ∧ e.OperandsApart

theorem LedBy.apart
    {e : Expr}
    (led : LedBy tokens e)
    (other : startsWithWord "not" tokens = false) :
    e.Apart := by
  refine ⟨fun opens => ?_, led.2⟩
  rw [led.1 opens] at other
  cases other

theorem ledBy_of_nameless
    {e : Expr}
    (nameless : e.opening? = none)
    (operandsApart : e.OperandsApart) :
    LedBy tokens e :=
  ⟨by simp [nameless], operandsApart⟩

theorem number_led : Shows (fun e _ => LedBy tokens e) (number token rest) := by
  unfold number
  split
  · exact .ok (ledBy_of_nameless rfl trivial)
  · exact .stop _

theorem string_led : Shows (fun e _ => LedBy tokens e) (string token rest) := by
  unfold string
  split
  · exact .ok (ledBy_of_nameless rfl trivial)
  · exact .stop _

theorem parameter_led : Shows (fun e _ => LedBy tokens e) (parameter rest) := by
  refine .behind fun token rest => ?_
  dsimp only
  split
  · exact .stop _
  · split
    · refine .behind fun _ rest => .behind fun modifier rest => .behind fun _ rest => ?_
      exact .ok (ledBy_of_nameless rfl trivial)
    · exact .behind fun _ rest => .ok (ledBy_of_nameless rfl trivial)

theorem rawText_led {opening : Token} :
    Shows (fun e _ => LedBy tokens e) (rawText source opening rest) := by
  unfold rawText
  split
  · exact .ok (ledBy_of_nameless rfl trivial)
  · exact .stop _

/-- A path and what ends it open with their first name. -/
theorem pathTail_opens
    (budget : Nat)
    (owner : List String)
    (name : String)
    (tokens : List Token) :
    Shows (fun e _ => e.opening? = (owner ++ [name]).head?.map String.toLower ∧ e.OperandsApart)
      (pathTail source budget owner name tokens) := by
  induction budget generalizing owner name tokens with
  | zero => exact .stop _
  | succ budget inductionHypothesis =>
    rw [pathTail]
    split
    · dsimp only
      by_cases starred : startsWith .star tokens.tail = true
      · rw [if_pos starred]
        exact .ok ⟨rfl, trivial⟩
      · rw [if_neg starred]
        refine .behind fun segment rest => ?_
        dsimp only
        split
        · exact .ok ⟨rfl, trivial⟩
        split
        · exact .behind fun element rest => .behind fun _ rest => .ok ⟨rfl, trivial⟩
        split
        · exact .ok ⟨rfl, trivial⟩
        · have onwards := inductionHypothesis (owner ++ [name]) segment.text rest
          rwa [List.head?_append_of_ne_nil _ (by simp)] at onwards
    · exact .ok ⟨rfl, trivial⟩

mutual

theorem disjunction_apart : ∀ budget tokens,
    Shows (fun e _ => e.Apart) (disjunction source budget tokens)
  | 0, _ => .stop _
  | budget + 1, tokens => by
    rw [disjunction]
    refine joined_shows Expr.Apart (conjunction_apart budget tokens) (conjunction_apart budget) ?_
      budget
    intro token join left right joins ofLeft ofRight
    rw [(orOperator?_cases joins).1]
    exact ⟨nofun, ofLeft.1, ofRight.1⟩

theorem conjunction_apart : ∀ budget tokens,
    Shows (fun e _ => e.Apart) (conjunction source budget tokens)
  | 0, _ => .stop _
  | budget + 1, tokens => by
    rw [conjunction]
    refine joined_shows Expr.Apart (negation_apart budget tokens) (negation_apart budget) ?_ budget
    intro token join left right joins ofLeft ofRight
    rw [(andOperator?_cases joins).1]
    exact ⟨nofun, ofLeft.1, ofRight.1⟩

theorem negation_apart : ∀ budget tokens,
    Shows (fun e _ => e.Apart) (negation source budget tokens)
  | 0, _ => .stop _
  | budget + 1, [] => by
    rw [negation]
    exact comparison_apart budget rfl
  | budget + 1, token :: rest => by
    rw [negation]
    split
    · exact (negation_apart budget rest).bind fun operand rest ofOperand =>
        .ok ⟨nofun, ofOperand.1⟩
    · rename_i other
      simp only [Bool.or_eq_true, not_or, Bool.not_eq_true] at other
      exact comparison_apart budget other.1

theorem comparison_apart : ∀ budget {tokens}, startsWithWord "not" tokens = false →
    Shows (fun e _ => e.Apart) (comparison source budget tokens)
  | 0, _, _ => .stop _
  | budget + 1, tokens, other => by
    rw [comparison]
    refine (sum_led budget tokens).bind fun left rest led => ?_
    have ofLeft := led.apart other
    dsimp only
    split
    · exact .behind fun _ rest => .behind fun _ rest => .ok ⟨nofun, ofLeft.1⟩
    · split
      · exact (comparisonTail_apart budget ofLeft rest.tail).bind fun positive rest ofPositive =>
          .ok ⟨nofun, ofPositive.1⟩
      · exact comparisonTail_apart budget ofLeft rest

theorem comparisonTail_apart : ∀ budget {left : Expr}, left.Apart → ∀ tokens,
    Shows (fun e _ => e.Apart) (comparisonTail source budget left tokens)
  | 0, _, _, _ => .stop _
  | budget + 1, left, ofLeft, [] => by
    rw [comparisonTail]
    exact .ok ofLeft
  | budget + 1, left, ofLeft, token :: rest => by
    rw [comparisonTail]
    split
    · exact .behind fun candidates rest => .ok ⟨nofun, ofLeft.1⟩
    · split
      · exact .ok ofLeft
      · exact .behind fun right rest => .ok ⟨nofun, ofLeft.1⟩

theorem sum_led : ∀ budget tokens,
    Shows (fun e _ => LedBy tokens e) (sum source budget tokens)
  | 0, _ => .stop _
  | budget + 1, tokens => by
    rw [sum]
    refine joined_shows (fun _ => True) (product_led budget tokens)
      (fun _ _ _ _ => trivial) ?_ budget
    intro token join left right joins _ _
    obtain ⟨⟨op, rfl⟩, -⟩ := sumOperator?_cases joins
    exact ledBy_of_nameless rfl trivial

theorem product_led : ∀ budget tokens,
    Shows (fun e _ => LedBy tokens e) (product source budget tokens)
  | 0, _ => .stop _
  | budget + 1, tokens => by
    rw [product]
    refine joined_shows (fun _ => True) (unary_led budget tokens)
      (fun _ _ _ _ => trivial) ?_ budget
    intro token join left right joins _ _
    obtain ⟨⟨op, rfl⟩, -⟩ := productOperator?_cases joins
    exact ledBy_of_nameless rfl trivial

theorem unary_led : ∀ budget tokens,
    Shows (fun e _ => LedBy tokens e) (unary source budget tokens)
  | 0, _ => .stop _
  | budget + 1, [] => by
    rw [unary]
    exact primary_led budget []
  | budget + 1, token :: rest => by
    rw [unary]
    split
    · exact .behind fun operand rest => .ok (ledBy_of_nameless rfl trivial)
    · exact primary_led budget (token :: rest)

theorem primary_led : ∀ budget tokens,
    Shows (fun e _ => LedBy tokens e) (primary source budget tokens)
  | 0, _ => .stop _
  | budget + 1, [] => by
    rw [primary]
    exact .stop _
  | budget + 1, token :: rest => by
    rw [primary]
    split
    · exact number_led
    · exact string_led
    · exact parameter_led
    · split
      · exact .behind fun query rest => .behind fun _ rest => .ok (ledBy_of_nameless rfl trivial)
      · refine (disjunction_apart budget rest).bind fun inner rest ofInner => ?_
        exact .behind fun _ rest => .ok ⟨fun opens => absurd opens ofInner.1, ofInner.2⟩
    · exact .ok (ledBy_of_nameless rfl trivial)
    · rename_i isWord
      exact wordPrimary_led budget isWord rest
    · exact .stop _

theorem wordPrimary_led : ∀ budget {token : Token} (_ : token.kind = .word) rest,
    Shows (fun e _ => LedBy (token :: rest) e) (wordPrimary source budget token rest)
  | 0, _, _, _ => .stop _
  | budget + 1, token, isWord, rest => by
    have named {e : Expr} (opens : e.opening? = some token.lower) (operandsApart : e.OperandsApart) :
        LedBy (token :: rest) e := by
      refine ⟨fun isNot => ?_, operandsApart⟩
      rw [opens] at isNot
      simp [startsWithWord, Token.isWord, isWord, Option.some.inj isNot]
    rw [wordPrimary]
    split
    · exact .ok (ledBy_of_nameless rfl trivial)
    split
    · exact .ok (ledBy_of_nameless rfl trivial)
    split
    · exact .ok (ledBy_of_nameless rfl trivial)
    split
    · exact .behind fun query rest => .behind fun _ rest => .ok (ledBy_of_nameless rfl trivial)
    split
    · exact .behind fun opening rest => rawText_led
    split
    · exact .ok (ledBy_of_nameless rfl trivial)
    split
    · exact .behind fun query rest => .ok (ledBy_of_nameless rfl trivial)
    split
    · exact .behind fun arguments rest => .ok (named rfl trivial)
    · exact (pathTail_opens budget [] token.text rest).mono fun e _ opens => named opens.1 opens.2

end

/-! ### Behind `not` -/

theorem negation_of_not
    (isWord : token.isWord "not" = true)
    (budget : Nat) :
    Shows (fun e _ => ∀ op left right, e ≠ .binary op left right)
      (negation source budget (token :: rest)) := by
  cases budget with
  | zero => exact .stop _
  | succ budget =>
    rw [negation, isWord, Bool.true_or, if_pos rfl]
    exact .behind fun operand rest => .ok nofun

/-- Where `not` comes first, no arithmetic is read. -/
theorem disjunction_of_not
    (isWord : token.isWord "not" = true)
    (budget : Nat) :
    Shows (fun e _ => ∀ op left right, e ≠ .binary op left right)
      (disjunction source budget (token :: rest)) := by
  have conjoined (budget : Nat) : Shows (fun e _ => ∀ op left right, e ≠ .binary op left right)
      (conjunction source budget (token :: rest)) := by
    cases budget with
    | zero => exact .stop _
    | succ budget =>
      rw [conjunction]
      refine joined_shows (fun _ => True) (negation_of_not isWord budget)
        (fun _ _ _ _ => trivial) ?_ budget
      intro token join left right joins _ _
      rw [(andOperator?_cases joins).1]
      exact nofun
  cases budget with
  | zero => exact .stop _
  | succ budget =>
    rw [disjunction]
    refine joined_shows (fun _ => True) (conjoined budget)
      (fun _ _ _ _ => trivial) ?_ budget
    intro token join left right joins _ _
    rw [(orOperator?_cases joins).1]
    exact nofun

end Grammar

end ObjectQuery
