import ObjectQuery.Expr.Printer
import ObjectQuery.Proofs.Expr.Groups
import ObjectQuery.Proofs.Expr.RawText

/-!
Contract: printed text is read back wherever it stands in a source.

A printed tree is a primary, so it is read back inside every form. The cost of reading is sixteen
steps for each token, which is what the budget of a whole text allows.

Owns:
- `Expr.ReadsBack` and `ReadsBackAs`;
- a form in its own parentheses;
- lists of items with commas between them.

Does not own: the texts of the forms.
-/

namespace ObjectQuery

open Grammar Token

/-! ### Places of a printed text -/

namespace Placed

variable {source text : List Char} {position : Nat} {c : Char}

theorem tail (placed : Placed source position (c :: text)) :
    Placed source (position + c.utf8Size) text := by
  have behind : Placed source (position + byteLength [c]) text := Placed.back placed
  rwa [byteLength_cons, byteLength_nil, Nat.add_zero] at behind

end Placed

namespace Token

theorem Scans.space
    {position : Nat}
    {text : List Char}
    {tokens : List Token}
    (behind : Scans (position + 1) text tokens) :
    Scans position (' ' :: text) tokens :=
  .blank (by decide) behind

end Token

/-- The text stands for the value: wherever it is placed, in front of whatever may follow, the form
reads the value from its tokens just when it is sheltered. -/
def ReadsBackAs
    {α : Type}
    (source : List Char)
    (form : Nat → List Token → Except Stop (α × List Token))
    (extra : Nat)
    (opens follows : Token → Prop)
    (text : List Char)
    (value : α)
    (sheltered : Prop) : Prop :=
  ∀ position, Placed source position text →
    ∃ tokens, Scans position text tokens ∧ (∃ first others, tokens = first :: others ∧ opens first) ∧
      ∀ rest, (∀ token ∈ rest.head?, follows token) →
        Rereads form (16 * tokens.length + extra) tokens value sheltered rest

/-- Wherever the text of the tree is placed, its tokens are a group, from which the tree is read back
just when it is sheltered. -/
def Expr.ReadsBack (source : List Char) (e : Expr) : Prop :=
  ∀ position, Placed source position e.text.toList →
    ∃ tokens, Scans position e.text.toList tokens ∧
      IsGroup source (16 * tokens.length) tokens e

variable {source body : List Char} {e : Expr}

theorem Expr.ReadsBack.sum (back : e.ReadsBack source) :
    ReadsBackAs source (Grammar.sum source) 3 (Opens e.opening?) (Token.Follows 4) e.text.toList
      e (e.Everywhere Shelters) := by
  intro position placed
  obtain ⟨tokens, scans, isGroup⟩ := back position placed
  exact ⟨tokens, scans, isGroup.opens, fun rest follows => isGroup.rereadsSum follows⟩

theorem Expr.ReadsBack.disjunction (back : e.ReadsBack source) :
    ReadsBackAs source (Grammar.disjunction source) 7 (Opens e.opening?) (Token.Follows 1)
      e.text.toList e e.Sheltered := by
  intro position placed
  obtain ⟨tokens, scans, isGroup⟩ := back position placed
  exact ⟨tokens, scans, isGroup.opens, fun rest follows => isGroup.rereadsDisjunction follows⟩

/-! ### Parentheses around a form -/

theorem rightParen_follows (position level : Nat) :
    Token.Follows (level + 1) ⟨.rightParen, ")", position⟩ :=
  Token.follows_of_kind (.inr rfl) level

theorem comma_follows (position level : Nat) :
    Token.Follows (level + 1) ⟨.comma, ",", position⟩ :=
  Token.follows_of_kind (.inl rfl) level

/-- A form in its own parentheses. -/
theorem Expr.readsBack_of_parentheses
    {inner : Prop}
    (nameless : e.opening? = none)
    (noQuery : ∀ query, e ≠ .query query)
    (opens : Token → Prop)
    (text : e.text.toList = '(' :: (body ++ [')']))
    (back : ReadsBackAs source (Grammar.disjunction source) 8 opens (Token.Follows 1) body e inner)
    (sheltered : ∀ token, opens token →
      (e.Everywhere Shelters ↔ inner ∧ token.isWord "select" = false)) :
    e.ReadsBack source := by
  intro position placed
  rw [text] at placed ⊢
  obtain ⟨tokens, scans, ⟨first, others, rfl, isOpening⟩, rereads⟩ :=
    back (position + 1) placed.tail.front
  have closing : Scans (position + 1 + byteLength body) [')'] [⟨.rightParen, ")", _⟩] :=
    .rightParen .nil
  have whole := Scans.leftParen (scans.append (separated_cons (by decide)) closing)
  have inside (rest : List Token) := rereads
    (⟨.rightParen, ")", position + 1 + byteLength body⟩ :: rest)
    (by simpa using rightParen_follows _ 0)
  refine ⟨_, whole, IsGroup.mono (isGroup_parenthesized nameless noQuery rfl rfl
    (List.cons_ne_nil first others) inside (by simpa using sheltered first isOpening)) ?_⟩
  simp only [List.length_cons, List.length_append, List.length_nil]
  omega

/-! ### Lists of items -/

theorem toList_commaList_cons_cons (first second : String) (others : List String) :
    (Text.commaList (first :: second :: others)).toList =
      first.toList ++ ',' :: ' ' :: (Text.commaList (second :: others)).toList := by
  have split : Text.commaList (first :: second :: others) =
      first ++ ", " ++ Text.commaList (second :: others) := String.intercalate_cons_cons ..
  rw [split, String.toList_append, String.toList_append, List.append_assoc]
  rfl

theorem commaList_singleton (text : String) : Text.commaList [text] = text :=
  String.intercalate_singleton

section Lists

variable {α : Type} {form : Nat → List Token → Except Stop (α × List Token)} {extra : Nat}
variable {opens : α → Token → Prop} {follows : Token → Prop} {itemText : α → String}
variable {sheltered : α → Prop}

/-- The last item of a list stands in front of no comma. -/
theorem commaSeparated_last
    {item : List Token → Except Stop (α × List Token)}
    {value : α}
    {tokens rest : List Token}
    {budget : Nat}
    (read : item tokens = .ok (value, rest))
    (noComma : ∀ token ∈ rest.head?, token.kind ≠ .comma) :
    commaSeparated item (budget + 1) tokens = .ok ([value], rest) := by
  rw [commaSeparated, read, ok_bind]
  cases rest with
  | nil => rfl
  | cons token rest => simp [noComma token rfl]

theorem commaSeparated_comma
    {item : List Token → Except Stop (α × List Token)}
    {value : α}
    {values : List α}
    {tokens behind rest : List Token}
    {comma : Token}
    {budget : Nat}
    (read : item tokens = .ok (value, comma :: behind))
    (isComma : comma.kind = .comma)
    (others : commaSeparated item budget behind = .ok (values, rest)) :
    commaSeparated item (budget + 1) tokens = .ok (value :: values, rest) := by
  rw [commaSeparated, read, ok_bind]
  simp only [isComma, if_true, others, ok_bind, pure_eq_ok]

/-- A list that begins with the value: the first item is the value, and behind it the list ends or
goes on behind a comma. -/
theorem commaSeparated_eq_cons
    {item : List Token → Except Stop (α × List Token)}
    {value : α}
    {values : List α}
    {tokens remaining : List Token}
    {budget : Nat}
    (read : commaSeparated item (budget + 1) tokens = .ok (value :: values, remaining)) :
    ∃ behind, item tokens = .ok (value, behind) ∧
      (values = [] ∧ remaining = behind ∨
        ∃ comma after, behind = comma :: after ∧ comma.kind = .comma ∧
          commaSeparated item budget after = .ok (values, remaining)) := by
  rw [commaSeparated] at read
  obtain ⟨⟨found, behind⟩, readItem, readOthers⟩ := bind_eq_ok.mp read
  cases behind with
  | nil =>
    obtain ⟨⟨rfl, rfl⟩, rfl⟩ : (found = value ∧ [] = values) ∧ [] = remaining := by
      simpa using readOthers
    exact ⟨[], readItem, .inl ⟨rfl, rfl⟩⟩
  | cons comma after =>
    by_cases isComma : comma.kind = .comma
    · simp only [isComma, if_true] at readOthers
      obtain ⟨⟨others, rest⟩, readAfter, equal⟩ := bind_eq_ok.mp readOthers
      obtain ⟨⟨rfl, rfl⟩, rfl⟩ : (found = value ∧ others = values) ∧ rest = remaining := by
        simpa using equal
      exact ⟨_, readItem, .inr ⟨comma, after, rfl, isComma, readAfter⟩⟩
    · obtain ⟨⟨rfl, rfl⟩, rfl⟩ : (found = value ∧ [] = values) ∧ comma :: after = remaining := by
        simpa [isComma] using readOthers
      exact ⟨_, readItem, .inl ⟨rfl, rfl⟩⟩

/-- The items are read on one budget each, and the commas on another. -/
structure RereadsList
    (form : Nat → List Token → Except Stop (α × List Token))
    (cost : Nat)
    (tokens : List Token)
    (values : List α)
    (sheltered : α → Prop)
    (rest : List Token) : Prop where
  matched : Matched (tokens ++ rest) rest
  reads : (∀ value ∈ values, sheltered value) → ∀ budget count, cost ≤ budget →
    tokens.length ≤ count → commaSeparated (form budget) count (tokens ++ rest) = .ok (values, rest)
  only : ∀ budget count remaining,
    commaSeparated (form budget) count (tokens ++ rest) = .ok (values, remaining) →
      remaining = rest ∧ ∀ value ∈ values, sheltered value

section

variable {value : α} {values : List α} {cost : Nat} {tokens more rest : List Token} {comma : Token}

theorem RereadsList.single
    (nonempty : 0 < tokens.length)
    (rereads : Rereads form cost tokens value (sheltered value) rest)
    (noComma : ∀ token ∈ rest.head?, token.kind ≠ .comma) :
    RereadsList form cost tokens [value] sheltered rest where
  matched := rereads.matched
  reads holds budget count enough long := by
    obtain ⟨count, rfl⟩ := Nat.exists_eq_add_of_le' (Nat.le_trans nonempty long)
    have read := rereads.reads (holds value (List.mem_singleton.mpr rfl)) budget enough
    exact commaSeparated_last read noComma
  only budget count remaining read := by
    cases count with
    | zero => cases read
    | succ count =>
      obtain ⟨behind, readItem, ends⟩ := commaSeparated_eq_cons read
      obtain ⟨rfl, holds⟩ := rereads.only budget behind readItem
      rcases ends with ⟨-, rfl⟩ | ⟨comma, after, rfl, isComma, -⟩
      · exact ⟨rfl, by simpa using holds⟩
      · exact absurd isComma (noComma comma rfl)

theorem RereadsList.cons
    (nonempty : values ≠ [])
    (rereads : Rereads form cost tokens value (sheltered value) (comma :: (more ++ rest)))
    (isComma : comma.kind = .comma)
    (others : RereadsList form cost more values sheltered rest) :
    RereadsList form cost (tokens ++ comma :: more) (value :: values) sheltered rest := by
  have arranged : tokens ++ comma :: more ++ rest = tokens ++ comma :: (more ++ rest) := by simp
  have skips : Matched (comma :: (more ++ rest)) (more ++ rest) :=
    .skip (by simp [isComma]) (by simp [isComma])
  refine ⟨?_, ?_, ?_⟩
  · rw [arranged]
    exact (rereads.matched.trans skips).trans others.matched
  · intro holds budget count enough long
    obtain ⟨holdsFirst, holdsOthers⟩ := List.forall_mem_cons.mp holds
    simp only [List.length_append, List.length_cons] at long
    obtain ⟨count, rfl⟩ := Nat.exists_eq_add_of_le' (Nat.le_trans (by omega) long : 1 ≤ count)
    have read := rereads.reads holdsFirst budget enough
    have readOthers := others.reads holdsOthers budget count enough (by omega)
    rw [arranged]
    exact commaSeparated_comma read isComma readOthers
  · intro budget count remaining read
    rw [arranged] at read
    cases count with
    | zero => cases read
    | succ count =>
      obtain ⟨behind, readItem, ends⟩ := commaSeparated_eq_cons read
      obtain ⟨rfl, holds⟩ := rereads.only budget behind readItem
      rcases ends with ⟨isEmpty, -⟩ | ⟨comma, after, equal, -, readOthers⟩
      · exact absurd isEmpty nonempty
      · obtain ⟨rfl, rfl⟩ := List.cons.inj equal
        obtain ⟨rfl, holdsOthers⟩ := others.only budget count remaining readOthers
        exact ⟨rfl, List.forall_mem_cons.mpr ⟨holds, holdsOthers⟩⟩

theorem RereadsList.mono
    {higher : Nat}
    (rereads : RereadsList form cost tokens values sheltered rest)
    (ordered : cost ≤ higher) :
    RereadsList form higher tokens values sheltered rest where
  matched := rereads.matched
  reads holds budget count enough := rereads.reads holds budget count (Nat.le_trans ordered enough)
  only := rereads.only

end

theorem commaSeparated_readsBack
    {value : α}
    {values : List α}
    (back : ∀ item ∈ value :: values, ReadsBackAs source form extra (opens item) follows
      (itemText item).toList item (sheltered item))
    (commaFollows : ∀ position, follows ⟨.comma, ",", position⟩)
    {position : Nat}
    (placed : Placed source position (Text.commaList ((value :: values).map itemText)).toList) :
    ∃ tokens, Scans position (Text.commaList ((value :: values).map itemText)).toList tokens ∧
      (∃ first others, tokens = first :: others ∧ opens value first) ∧
      ∀ rest, (∀ token ∈ rest.head?, follows token ∧ token.kind ≠ .comma) →
        RereadsList form (16 * tokens.length + extra) tokens (value :: values) sheltered rest := by
  induction values generalizing value position with
  | nil =>
    rw [List.map_cons, List.map_nil, commaList_singleton] at placed ⊢
    obtain ⟨tokens, scans, isOpening, rereads⟩ := back value (by simp) position placed
    refine ⟨tokens, scans, isOpening, fun rest stops => ?_⟩
    obtain ⟨first, others, rfl, -⟩ := isOpening
    exact .single (Nat.succ_pos _) (rereads rest fun token head => (stops token head).1)
      fun token head => (stops token head).2
  | cons second values inductionHypothesis =>
    rw [List.map_cons, List.map_cons, toList_commaList_cons_cons] at placed ⊢
    obtain ⟨tokens, scans, isOpening, rereads⟩ := back value (by simp) position placed.front
    obtain ⟨moreTokens, scansMore, -, rereadsMore⟩ :=
      inductionHypothesis (fun item member => back item (List.mem_cons_of_mem value member))
        placed.back.tail.tail
    have scansBehind := Scans.comma (Scans.space scansMore)
    refine ⟨_, scans.append (separated_cons (by decide)) scansBehind, ?_, ?_⟩
    · obtain ⟨first, others, rfl, opensFirst⟩ := isOpening
      exact ⟨first, _, rfl, opensFirst⟩
    · intro rest stops
      have read := rereads (⟨.comma, ",", position + byteLength (itemText value).toList⟩ ::
        (moreTokens ++ rest)) (by simpa using commaFollows _)
      have long : (tokens ++ ⟨.comma, ",", position + byteLength (itemText value).toList⟩ ::
          moreTokens).length = tokens.length + (moreTokens.length + 1) := by simp
      rw [long]
      exact .cons (List.cons_ne_nil second values) (read.mono (by omega)) rfl
        ((rereadsMore rest stops).mono (by omega))

theorem readsBackAs_commaList
    {values : List α}
    (nonempty : values ≠ [])
    (back : ∀ item ∈ values, ReadsBackAs source form extra (opens item) follows
      (itemText item).toList item (sheltered item))
    (commaFollows : ∀ position, follows ⟨.comma, ",", position⟩) :
    ReadsBackAs source (fun budget => commaSeparated (form budget) budget) extra
      (fun token => ∀ value ∈ values.head?, opens value token)
      (fun token => follows token ∧ token.kind ≠ .comma)
      (Text.commaList (values.map itemText)).toList values (∀ value ∈ values, sheltered value) := by
  intro position placed
  obtain ⟨value, values, rfl⟩ := List.exists_cons_of_ne_nil nonempty
  obtain ⟨tokens, scans, isOpening, rereads⟩ := commaSeparated_readsBack back commaFollows placed
  obtain ⟨first, others, rfl, opensFirst⟩ := isOpening
  refine ⟨_, scans, ⟨first, others, rfl, by simpa using opensFirst⟩, fun rest stops => ?_⟩
  obtain ⟨matched, reads, only⟩ := rereads rest stops
  exact ⟨matched, fun holds budget enough => reads holds budget budget enough (by omega),
    fun budget => only budget budget⟩

/-- A list in parentheses, which may be empty. -/
theorem parenthesized_readsBack
    {values : List α}
    (back : ∀ item ∈ values, ReadsBackAs source form extra (opens item) follows
      (itemText item).toList item (sheltered item))
    (matching : ∀ budget tokens, Matches tokens (form budget tokens))
    (commaFollows : ∀ position, follows ⟨.comma, ",", position⟩)
    (closingFollows : ∀ position, follows ⟨.rightParen, ")", position⟩)
    (noClosing : ∀ item token, opens item token → token.kind ≠ .rightParen)
    {position : Nat}
    (placed : Placed source position
      ('(' :: ((Text.commaList (values.map itemText)).toList ++ [')']))) :
    ∃ opening others,
      Scans position ('(' :: ((Text.commaList (values.map itemText)).toList ++ [')']))
        (opening :: others) ∧
      opening.kind = .leftParen ∧
      ∀ rest, Retakes (fun budget => parenthesized (form budget) budget)
        (16 * (others.length + 1) + extra) (opening :: others) values
        (∀ value ∈ values, sheltered value) rest := by
  cases values with
  | nil =>
    have scans : Scans position ['(', ')']
        [⟨.leftParen, "(", position⟩, ⟨.rightParen, ")", position + 1⟩] :=
      .leftParen (.rightParen .nil)
    refine ⟨_, _, scans, rfl, fun rest => ?_⟩
    have reads (budget : Nat) : parenthesized (form budget) budget
        (⟨.leftParen, "(", position⟩ :: ⟨.rightParen, ")", position + 1⟩ :: rest) = .ok ([], rest) :=
      rfl
    refine ⟨Matched.enclosed rfl (.refl _) rfl, fun holds budget enough => reads budget, ?_⟩
    intro budget
    exact .ok ⟨rfl, fun _ => List.forall_mem_nil _⟩
  | cons value values =>
    obtain ⟨tokens, scans, ⟨first, others, equal, isOpening⟩, rereads⟩ :=
      readsBackAs_commaList (List.cons_ne_nil value values) back commaFollows (position + 1)
        placed.tail.front
    have notClosing := noClosing value first (isOpening value rfl)
    generalize (Text.commaList ((value :: values).map itemText)).toList = list at scans
    have closing : Scans (position + 1 + byteLength list) [')']
        [⟨.rightParen, ")", position + 1 + byteLength list⟩] := .rightParen .nil
    have whole := Scans.leftParen (scans.append (separated_cons (by decide)) closing)
    refine ⟨_, _, whole, rfl, fun rest => ?_⟩
    have read := rereads (⟨.rightParen, ")", position + 1 + byteLength list⟩ :: rest)
      (by simpa using closingFollows _)
    refine (Retakes.parenthesized rfl rfl ⟨first, others, equal, notClosing⟩ matching read).mono ?_
    simp only [List.length_append, List.length_cons, List.length_nil]
    omega

end Lists

end ObjectQuery
