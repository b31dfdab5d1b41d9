import ObjectQuery.Proofs.Expr.Groups
import ObjectQuery.Proofs.Expr.Readable

/-!
Contract: the forms without an operator at their top, by their tokens.

Each lemma states which tokens a form takes and what may not follow them.

Owns:
- literals, parameters and the bare star as primaries;
- the forms that begin with a word as groups, and how a path goes on behind its first name.

Does not own: texts, and the queries inside `exists`.
-/

namespace ObjectQuery

theorem Token.isWord_eq
    {token : Token}
    {word : String}
    (isWord : token.isWord word = true)
    (other : String) :
    token.isWord other = (word == other) := by
  rw [Token.isWord, Token.kind_of_isWord isWord, Token.lower_of_isWord isWord]
  rfl

theorem Token.isWord_eq_false_of_not_mem
    {token : Token}
    {words : List String}
    (notAmong : token.lower ∉ words)
    (word : String)
    (member : word ∈ words) :
    token.isWord word = false := by
  rw [Bool.eq_false_iff]
  intro isWord
  rw [Token.lower_of_isWord isWord] at notAmong
  exact notAmong member

namespace Grammar

variable {source : List Char} {first opening closing dot member : Token}
variable {others tokens rest : List Token} {cost budget : Nat} {e : Expr}
variable {owner : List String} {name : String}

/-! ### Forms that begin with a number, a quotation or a symbol -/

theorem isPrimary_symbol
    (nameless : e.opening? = none)
    (noWord : first.kind ≠ .word)
    (noSign : first.kind ≠ .minus ∧ first.kind ≠ .bang ∧ first.kind ≠ .rightParen)
    (positive : 0 < cost)
    (reads : ∀ rest, Reads (primary source) cost (first :: others) e rest) :
    IsPrimary source cost (first :: others) e where
  opens := by
    obtain ⟨noMinus, noBang, noClosing⟩ := noSign
    exact ⟨first, others, rfl, noMinus, noBang, noClosing, by simp [Token.isWord, noWord, nameless]⟩
  positive := positive
  reads rest _ := reads rest
  notShort rest _ := by simp [startsShortQuery, noWord]

theorem isPrimary_number
    {value : Value}
    (isNumber : first.kind = .number)
    (stands : numberValue? first.text = some value) :
    IsPrimary source 1 [first] (.literal value) := by
  refine isPrimary_symbol rfl (by simp [isNumber]) (by simp [isNumber]) (by decide) ?_
  intro rest budget enough
  obtain ⟨budget, rfl⟩ := Nat.exists_eq_add_of_le' enough
  rw [List.singleton_append, primary, isNumber]
  simp only [number, stands]

theorem isPrimary_string
    {text : String}
    (isString : first.kind = .string)
    (stands : first.stringValue? = some text) :
    IsPrimary source 1 [first] (.literal (.string text)) := by
  refine isPrimary_symbol rfl (by simp [isString]) (by simp [isString]) (by decide) ?_
  intro rest budget enough
  obtain ⟨budget, rfl⟩ := Nat.exists_eq_add_of_le' enough
  rw [List.singleton_append, primary, isString]
  simp only [string, stands]

theorem isPrimary_star (isStar : first.kind = .star) : IsPrimary source 1 [first] (.asterisk []) := by
  refine isPrimary_symbol rfl (by simp [isStar]) (by simp [isStar]) (by decide) ?_
  intro rest budget enough
  obtain ⟨budget, rfl⟩ := Nat.exists_eq_add_of_le' enough
  rw [List.singleton_append, primary, isStar]

theorem isPrimary_parameter
    {indexToken : Token}
    {index : Nat}
    (opens : opening.kind = .leftCurly)
    (isNumber : indexToken.kind = .number)
    (stands : parameterIndex? indexToken.text = some index)
    (closes : closing.kind = .rightCurly) :
    IsPrimary source 1 [opening, indexToken, closing] (.parameter index none) := by
  refine isPrimary_symbol rfl (by simp [opens]) (by simp [opens]) (by decide) ?_
  intro rest budget enough
  obtain ⟨budget, rfl⟩ := Nat.exists_eq_add_of_le' enough
  simp [primary, opens, parameter, expect, isNumber, stands, startsWith, closes]

theorem isPrimary_modifiedParameter
    {indexToken colon modifier : Token}
    {index : Nat}
    (opens : opening.kind = .leftCurly)
    (isNumber : indexToken.kind = .number)
    (stands : parameterIndex? indexToken.text = some index)
    (isColon : colon.kind = .colon)
    (isWord : modifier.kind = .word)
    (closes : closing.kind = .rightCurly) :
    IsPrimary source 1 [opening, indexToken, colon, modifier, closing]
      (.parameter index (some modifier.text)) := by
  refine isPrimary_symbol rfl (by simp [opens]) (by simp [opens]) (by decide) ?_
  intro rest budget enough
  obtain ⟨budget, rfl⟩ := Nat.exists_eq_add_of_le' enough
  simp [primary, opens, parameter, expect, isNumber, stands, startsWith, isColon, identifier, isWord,
    closes]

/-! ### Forms that begin with a word -/

theorem isPrimary_word
    (isWord : first.kind = .word)
    (leads : ∀ word ∈ openingWords, (first.isWord word = true ↔ e.opening? = some word))
    (notShort : ∀ rest, (∀ token ∈ rest.head?, token.Follows 6) →
      startsWithWord "where" (others ++ rest) = false)
    (reads : ∀ rest, (∀ token ∈ rest.head?, token.Follows 6) →
      Reads (fun budget => wordPrimary source budget first) cost others e rest) :
    IsPrimary source (cost + 1) (first :: others) e where
  opens := ⟨first, others, rfl, by simp [isWord], by simp [isWord], by simp [isWord], leads⟩
  positive := Nat.succ_pos cost
  reads rest follows budget enough := by
    obtain ⟨budget, rfl⟩ := Nat.exists_eq_add_of_le' (Nat.le_trans (Nat.le_add_left 1 cost) enough)
    have read := reads rest follows budget (by omega)
    rw [List.cons_append, primary, isWord]
    exact read
  notShort rest follows := by
    rw [List.cons_append, startsShortQuery, notShort rest follows, Bool.and_false]

theorem startsWithWord_where_eq_false
    (follows : ∀ token ∈ rest.head?, token.Follows 6) :
    startsWithWord "where" rest = false := by
  cases rest with
  | nil => rfl
  | cons token rest => exact (follows token rfl).2.2.2

theorem startsWith_leftParen_eq_false
    (follows : ∀ token ∈ rest.head?, token.Follows 6) :
    startsWith .leftParen rest = false := by
  cases rest with
  | nil => rfl
  | cons token rest => simpa [startsWith] using (follows token rfl).2.2.1

/-- A word of its own is none that a form looks for in front of an expression. -/
theorem leads_of_isWord
    {own : String}
    (isOwn : first.isWord own = true)
    (notOpening : own ∉ openingWords) :
    ∀ word ∈ openingWords, (first.isWord word = true ↔ none = some word) := by
  intro word among
  rw [Token.isWord_eq isOwn, beq_iff_eq]
  constructor
  · rintro rfl
    exact absurd among notOpening
  · nofun

/-- A word that is the opening name is no other word. -/
theorem leads_of_opening
    {opening : Option String}
    (isWord : first.kind = .word)
    (opens : opening = some first.lower) :
    ∀ word ∈ openingWords, (first.isWord word = true ↔ opening = some word) := by
  intro word _
  simp [Token.isWord, isWord, opens]

/-- A word that is an expression on its own. -/
theorem isPrimary_ownWord
    {own : String}
    (isOwn : first.isWord own = true)
    (notOpening : own ∉ openingWords)
    (unnamed : e.opening? = none)
    (reads : ∀ budget rest, startsWith .leftParen rest = false →
      wordPrimary source (budget + 1) first rest = .ok (e, rest)) :
    IsPrimary source 2 [first] e := by
  refine isPrimary_word (Token.kind_of_isWord isOwn) (unnamed ▸ leads_of_isWord isOwn notOpening)
    (fun rest follows => startsWithWord_where_eq_false follows) ?_
  intro rest follows budget enough
  obtain ⟨budget, rfl⟩ := Nat.exists_eq_add_of_le' enough
  exact reads budget rest (startsWith_leftParen_eq_false follows)

theorem isPrimary_true (isWord : first.isWord "true" = true) :
    IsPrimary source 2 [first] (.boolean true) :=
  isPrimary_ownWord isWord (by decide) rfl fun _ _ _ => by simp [wordPrimary, isWord]

theorem isPrimary_false (isWord : first.isWord "false" = true) :
    IsPrimary source 2 [first] (.boolean false) :=
  isPrimary_ownWord isWord (by decide) rfl fun _ _ _ => by
    simp [wordPrimary, Token.isWord_eq isWord]

theorem isPrimary_null (isWord : first.isWord "null" = true) :
    IsPrimary source 2 [first] (.literal .null) :=
  isPrimary_ownWord isWord (by decide) rfl fun _ _ _ => by
    simp [wordPrimary, Token.isWord_eq isWord]

theorem isPrimary_classTag (isWord : first.isWord "soodaclass" = true) :
    IsPrimary source 2 [first] (.classTag []) :=
  isPrimary_ownWord isWord (by decide) rfl fun _ _ unopened => by
    simp [wordPrimary, Token.isWord_eq isWord, unopened]

theorem isPrimary_raw
    {raw : String}
    {inner : List Token}
    (isWord : first.isWord "rawquery" = true)
    (opens : opening.kind = .leftParen)
    (reads : ∀ rest, rawText source opening (inner ++ closing :: rest) = .ok (.raw raw, rest)) :
    IsPrimary source 2 (first :: opening :: (inner ++ [closing])) (.raw raw) := by
  refine isPrimary_word (Token.kind_of_isWord isWord) (leads_of_isWord isWord (by decide))
    (fun rest follows => by simp [startsWithWord, Token.isWord, opens]) ?_
  intro rest follows budget enough
  obtain ⟨budget, rfl⟩ := Nat.exists_eq_add_of_le' enough
  have read := reads rest
  have arranged : opening :: (inner ++ [closing]) ++ rest =
      opening :: (inner ++ closing :: rest) := by simp
  simp [arranged, wordPrimary, Token.isWord_eq isWord, startsWith, opens, expect, read]

/-! ### Groups that begin with a word -/

theorem isGroup_word
    (isWord : first.kind = .word)
    (leads : ∀ word ∈ openingWords, (first.isWord word = true ↔ e.opening? = some word))
    (notShort : ∀ rest, (∀ token ∈ rest.head?, token.Follows 6) →
      startsWithWord "where" (others ++ rest) = false)
    (retakes : ∀ rest, (∀ token ∈ rest.head?, token.Follows 6) →
      Retakes (fun budget => wordPrimary source budget first) cost others e
        (e.Everywhere Expr.Shelters) rest) :
    IsGroup source (cost + 1) (first :: others) e where
  opens := ⟨first, others, rfl, by simp [isWord], by simp [isWord], by simp [isWord], leads⟩
  positive := Nat.succ_pos cost
  notShort rest follows := by
    rw [List.cons_append, startsShortQuery, notShort rest follows, Bool.and_false]
  retakes rest follows := by
    refine (retakes rest follows).succ (fun _ => rfl) ?_ (.skip_word isWord)
    intro budget
    rw [List.cons_append, primary, isWord]

theorem isGroup_nonempty
    {selectToken : Token}
    {query : Query}
    (isWord : first.isWord "exists" = true)
    (opens : opening.kind = .leftParen)
    (closes : closing.kind = .rightParen)
    (selects : selectToken.isWord "select" = true)
    (rereads : ∀ rest, Rereads (select source) cost (selectToken :: others) query query.Sheltered
      (closing :: rest)) :
    IsGroup source (cost + 3) (first :: opening :: (selectToken :: others ++ [closing]))
      (.nonempty query) := by
  have injective : Function.Injective Expr.nonempty := fun _ _ => Expr.nonempty.inj
  have nested (rest : List Token) : Rereads (nestedQuery source) (cost + 1) (selectToken :: others)
      query query.Sheltered (closing :: rest) := by
    refine (rereads rest).succ (fun _ => rfl) (fun budget => ?_) (.refl _)
    have isSelect : startsWithWord "select" (selectToken :: others ++ closing :: rest) = true :=
      selects
    rw [nestedQuery, if_pos isSelect]
  refine isGroup_word (Token.kind_of_isWord isWord) (leads_of_isWord isWord (by decide))
    (fun rest follows => by simp [startsWithWord, Token.isWord, opens]) fun rest follows => ?_
  refine Retakes.congr (Retakes.enclosed [] injective opens closes (fun _ => rfl) ?_ (.refl _)
    nestedQuery_matches (nested rest)) Expr.sheltered_nonempty_iff.symm
  intro budget
  simp [wordPrimary, Token.isWord_eq isWord, startsWith, opens]

theorem isGroup_call
    {arguments : List Expr}
    (isWord : first.kind = .word)
    (notAmong : first.lower ∉ callWords)
    (opens : opening.kind = .leftParen)
    (retakes : ∀ rest, Retakes (fun budget => parenthesized (disjunction source budget) budget) cost
      (opening :: others) arguments (∀ argument ∈ arguments, argument.Sheltered) rest) :
    IsGroup source (cost + 2) (first :: opening :: others) (.call first.text arguments) := by
  have notTrue := Token.isWord_eq_false_of_not_mem notAmong "true" (by decide)
  have notFalse := Token.isWord_eq_false_of_not_mem notAmong "false" (by decide)
  have notNull := Token.isWord_eq_false_of_not_mem notAmong "null" (by decide)
  have notExists := Token.isWord_eq_false_of_not_mem notAmong "exists" (by decide)
  have notRaw := Token.isWord_eq_false_of_not_mem notAmong "rawquery" (by decide)
  have injective : Function.Injective (Expr.call first.text) := fun _ _ same =>
    (Expr.call.inj same).2
  refine isGroup_word isWord (leads_of_opening isWord rfl)
    (fun rest follows => by simp [startsWithWord, Token.isWord, opens]) fun rest follows => ?_
  refine Retakes.congr (Retakes.map injective (fun _ => rfl) ?_ (retakes rest))
    Expr.sheltered_call_iff.symm
  intro budget
  have noWhere : startsWithWord "where" (opening :: (others ++ rest)) = false := by
    simp [startsWithWord, Token.isWord, opens]
  simp [wordPrimary, notTrue, notFalse, notNull, notExists, notRaw, startsWith, opens,
    startsShortQuery, noWhere]

/-! ### Paths -/

/-- What a path may stand in front of: a dot, or a token that may follow any form. -/
def PathGoesOn (tokens : List Token) : Prop :=
  ∀ token ∈ tokens.head?, token.kind = .dot ∨ token.Follows 6

theorem PathGoesOn.unopened (goesOn : PathGoesOn tokens) : startsWith .leftParen tokens = false := by
  cases tokens with
  | nil => rfl
  | cons token tokens =>
    rcases goesOn token rfl with isDot | follows
    · simp [startsWith, isDot]
    · simpa [startsWith] using follows.2.2.1

theorem PathGoesOn.notWhere (goesOn : PathGoesOn tokens) :
    startsWithWord "where" tokens = false := by
  cases tokens with
  | nil => rfl
  | cons token tokens =>
    rcases goesOn token rfl with isDot | follows
    · simp [startsWithWord, Token.isWord, isDot]
    · exact follows.2.2.2

/-- A word in front of a path is its first name. -/
theorem isGroup_path
    (isWord : first.kind = .word)
    (opens : e.opening? = some first.lower)
    (notAmong : first.lower ∉ pathWords)
    (goesOn : ∀ rest, (∀ token ∈ rest.head?, token.Follows 6) → PathGoesOn (others ++ rest))
    (retakes : ∀ rest, (∀ token ∈ rest.head?, token.Follows 6) →
      Retakes (fun budget => pathTail source budget [] first.text) cost others e
        (e.Everywhere Expr.Shelters) rest) :
    IsGroup source (cost + 2) (first :: others) e := by
  have notTrue := Token.isWord_eq_false_of_not_mem notAmong "true" (by decide)
  have notFalse := Token.isWord_eq_false_of_not_mem notAmong "false" (by decide)
  have notNull := Token.isWord_eq_false_of_not_mem notAmong "null" (by decide)
  have notTag := Token.isWord_eq_false_of_not_mem notAmong "soodaclass" (by decide)
  refine isGroup_word isWord (leads_of_opening isWord opens)
    (fun rest follows => (goesOn rest follows).notWhere) fun rest follows => ?_
  refine (retakes rest follows).succ (fun _ => rfl) ?_ (.refl _)
  intro budget
  have unopened := (goesOn rest follows).unopened
  have noWhere := (goesOn rest follows).notWhere
  simp [wordPrimary, notTrue, notFalse, notNull, notTag, unopened, startsShortQuery, noWhere]

theorem pathTail_path (follows : ∀ token ∈ rest.head?, token.Follows 6) :
    pathTail source (budget + 1) owner name rest = .ok (.path ⟨owner, name⟩, rest) := by
  have noDot : startsWith .dot rest = false := by
    cases rest with
    | nil => rfl
    | cons token rest => simpa [startsWith] using (follows token rfl).2.1
  simp [pathTail, noDot]

theorem pathTail_member
    (isDot : dot.kind = .dot)
    (isWord : member.kind = .word)
    (notAmong : member.lower ∉ memberWords)
    (goesOn : PathGoesOn rest) :
    pathTail source (budget + 1) owner name (dot :: member :: rest) =
      pathTail source budget (owner ++ [name]) member.text rest := by
  have notCount := Token.isWord_eq_false_of_not_mem notAmong "count" (by decide)
  have notTag := Token.isWord_eq_false_of_not_mem notAmong "soodaclass" (by decide)
  have unopened := goesOn.unopened
  simp [pathTail, startsWith_cons, isDot, isWord, expect, notCount, notTag, unopened]

theorem pathTail_asterisk
    (isDot : dot.kind = .dot)
    (isStar : member.kind = .star) :
    pathTail source (budget + 1) owner name (dot :: member :: rest) =
      .ok (.asterisk (owner ++ [name]), rest) := by
  simp [pathTail, startsWith, isDot, isStar]

theorem pathTail_count
    (isDot : dot.kind = .dot)
    (isWord : member.isWord "count" = true)
    (follows : ∀ token ∈ rest.head?, token.Follows 6) :
    pathTail source (budget + 1) owner name (dot :: member :: rest) =
      .ok (.count owner name, rest) := by
  have kind := Token.kind_of_isWord isWord
  have unopened := startsWith_leftParen_eq_false follows
  simp [pathTail, startsWith_cons, isDot, kind, expect, isWord, unopened]

theorem pathTail_classTag
    (isDot : dot.kind = .dot)
    (isWord : member.isWord "soodaclass" = true)
    (follows : ∀ token ∈ rest.head?, token.Follows 6) :
    pathTail source (budget + 1) owner name (dot :: member :: rest) =
      .ok (.classTag (owner ++ [name]), rest) := by
  have kind := Token.kind_of_isWord isWord
  have unopened := startsWith_leftParen_eq_false follows
  simp [pathTail, startsWith_cons, isDot, kind, expect, Token.isWord_eq isWord, unopened]

theorem pathTail_contains
    (isDot : dot.kind = .dot)
    (isWord : member.isWord "contains" = true)
    (opens : opening.kind = .leftParen)
    (closes : closing.kind = .rightParen)
    (isGroup : IsGroup source cost tokens e) :
    Retakes (fun budget => pathTail source budget owner name) (cost + 9)
      (dot :: member :: opening :: (tokens ++ [closing])) (.contains owner name e)
      ((Expr.contains owner name e).Everywhere Expr.Shelters) rest := by
  have kind := Token.kind_of_isWord isWord
  have injective : Function.Injective (Expr.contains owner name) := fun _ _ same =>
    (Expr.contains.inj same).2.2
  have follows : ∀ token ∈ (closing :: rest).head?, token.Follows 1 := by
    simpa using Token.follows_of_kind (.inr closes) 0
  have notShort := isGroup.notShort (closing :: rest) (Follows.mono (by decide) follows)
  have element : Rereads (containsElement source) (cost + 8) tokens e e.Sheltered
      (closing :: rest) := by
    refine (isGroup.rereadsDisjunction follows).succ (fun _ => rfl) (fun budget => ?_) (.refl _)
    simp only [containsElement, notShort, Bool.false_eq_true, if_false]
  refine Retakes.congr (Retakes.enclosed [dot, member] injective opens closes (fun _ => rfl) ?_ ?_
    containsElement_matches element) Expr.sheltered_contains_iff.symm
  · intro budget
    simp [pathTail, startsWith_cons, isDot, kind, expect, Token.isWord_eq isWord, opens]
  · exact (Matched.skip (by simp [isDot]) (by simp [isDot])).trans (.skip_word kind)

/-- What can be read on a larger budget is all that can be read. -/
theorem Takes.of_more
    {α : Type}
    {form : Nat → List Token → Except Stop (α × List Token)}
    {good : α → Prop}
    (extra : Nat)
    (step : ∀ budget, Extends (form budget (tokens ++ rest)) (form (budget + 1) (tokens ++ rest)))
    (more : ∀ budget, Shows (Leaves rest good) (form (budget + extra) (tokens ++ rest))) :
    Takes form tokens good rest := by
  intro budget value remaining read
  have settled : form budget (tokens ++ rest) ≠ .error .outOfBudget := by simp [read]
  have same := Extends.eq_of_le step settled (Nat.le_add_right budget extra)
  exact more budget value remaining (same.trans read)

end Grammar

end ObjectQuery
