import ObjectQuery.Proofs.Expr.Rereading

/-!
Contract: operators are read back between their operands.

Each composite form stands in its own parentheses, and its operands are primaries there.

Owns: the forms with one or two operands, and the list of candidates.

Does not own: names, calls, literals and queries.
-/

namespace ObjectQuery

open Grammar Token

variable {source : List Char} {e left right : Expr}

/-! ### Words and symbols between blanks -/

/-- The characters are one token of the kind when a blank follows them. -/
def SpellsToken (kind : TokenKind) (symbol : List Char) : Prop :=
  ∃ c more, symbol = c :: more ∧ isTokenBlank c = false ∧
    ∀ rest, firstPiece c (more ++ ' ' :: rest) = (some kind, more.length)

theorem SpellsToken.scans
    {kind : TokenKind}
    {symbol text : List Char}
    {position : Nat}
    {tokens : List Token}
    (spells : SpellsToken kind symbol)
    (behind : Scans (position + byteLength symbol) (' ' :: text) tokens) :
    Scans position (symbol ++ ' ' :: text) (⟨kind, String.ofList symbol, position⟩ :: tokens) := by
  obtain ⟨c, more, rfl, solid, first⟩ := spells
  exact .piece solid rfl (first text) behind

theorem IsName.spellsToken {name : List Char} (isName : IsName name) :
    SpellsToken .word name := by
  obtain ⟨c, parts, rfl, start, inside⟩ := isName
  refine ⟨c, parts, rfl, isTokenBlank_of_isWordStart start, fun rest => ?_⟩
  exact firstPiece_name start inside (by simp; decide)

/-- An operator between two trees, with blanks around it. -/
theorem readsBackAs_operator
    {whole : Expr}
    {symbol : List Char}
    {kind : TokenKind}
    {sheltered : Prop}
    (backLeft : left.ReadsBack source)
    (backRight : right.ReadsBack source)
    (spells : SpellsToken kind symbol)
    (rereads : ∀ position cost leftTokens rightTokens rest,
      IsGroup source cost leftTokens left → IsGroup source cost rightTokens right →
      (∀ token ∈ rest.head?, Token.Follows 1 token) →
      Rereads (Grammar.disjunction source) (cost + 8)
        (leftTokens ++ ⟨kind, String.ofList symbol, position⟩ :: rightTokens) whole sheltered rest) :
    ReadsBackAs source (Grammar.disjunction source) 8 (Opens left.opening?) (Token.Follows 1)
      (left.text.toList ++ ' ' :: (symbol ++ ' ' :: right.text.toList)) whole sheltered := by
  intro position placed
  obtain ⟨leftTokens, scansLeft, isLeft⟩ := backLeft position placed.front
  obtain ⟨rightTokens, scansRight, isRight⟩ := backRight _ placed.back.tail.back.tail
  have scansBehind := Scans.space (spells.scans (Scans.space scansRight))
  have scans := scansLeft.append (separated_cons (by decide)) scansBehind
  obtain ⟨first, others, equal, opens⟩ := isLeft.opens
  refine ⟨_, scans, ⟨first, _, by rw [equal]; rfl, opens⟩, ?_⟩
  intro rest follows
  have cheap : 16 * leftTokens.length ≤ 16 * (leftTokens.length + rightTokens.length) := by omega
  refine (rereads _ _ leftTokens rightTokens rest (isLeft.mono cheap)
    (isRight.mono (by omega)) follows).mono ?_
  simp only [List.length_append, List.length_cons]
  omega

theorem toList_operator (left symbol right : String) :
    ("(" ++ left ++ " " ++ symbol ++ " " ++ right ++ ")").toList =
      '(' :: ((left.toList ++ ' ' :: (symbol.toList ++ ' ' :: right.toList)) ++ [')']) := by
  simp

/-- A left operand may stand behind a parenthesis if it does not open with `select`. -/
theorem Expr.sheltered_of_opening
    {whole : Expr}
    {inner : Prop}
    {opening : Option String}
    (sheltered : whole.Everywhere Shelters ↔ inner ∧ opening ≠ some "select")
    (token : Token)
    (opens : Opens opening token) :
    whole.Everywhere Shelters ↔ inner ∧ token.isWord "select" = false :=
  sheltered.trans (and_congr_right' (opens.apart_iff (by decide)))

theorem Expr.readsBack_and
    (backLeft : left.ReadsBack source)
    (backRight : right.ReadsBack source) :
    (Expr.and left right).ReadsBack source := by
  have lower : "and".toLower = "and" := Text.toLower_eq (by decide)
  have isName : IsName "and".toList := by decide
  have text : (Expr.and left right).text.toList =
      '(' :: ((left.text.toList ++ ' ' :: ("and".toList ++ ' ' :: right.text.toList)) ++ [')']) := by
    show ("(" ++ left.text ++ " and " ++ right.text ++ ")").toList = _
    simp
  refine readsBack_of_parentheses rfl nofun (Opens left.opening?) text
    (readsBackAs_operator backLeft backRight isName.spellsToken ?_)
    (sheltered_of_opening sheltered_and_iff)
  intro position cost leftTokens rightTokens rest isLeft isRight follows
  have joins : andOperator? ⟨.word, "and", position⟩ = some .and := by
    simp [andOperator?, word_isWord position lower]
  have between : Token.Follows 3 ⟨.word, "and", position⟩ :=
    word_follows position lower (by decide) (by decide)
  exact (rereads_and isLeft isRight joins between nofun follows).mono (by omega)

theorem Expr.readsBack_or
    (backLeft : left.ReadsBack source)
    (backRight : right.ReadsBack source) :
    (Expr.or left right).ReadsBack source := by
  have lower : "or".toLower = "or" := Text.toLower_eq (by decide)
  have isName : IsName "or".toList := by decide
  have text : (Expr.or left right).text.toList =
      '(' :: ((left.text.toList ++ ' ' :: ("or".toList ++ ' ' :: right.text.toList)) ++ [')']) := by
    show ("(" ++ left.text ++ " or " ++ right.text ++ ")").toList = _
    simp
  refine readsBack_of_parentheses rfl nofun (Opens left.opening?) text
    (readsBackAs_operator backLeft backRight isName.spellsToken ?_)
    (sheltered_of_opening sheltered_or_iff)
  intro position cost leftTokens rightTokens rest isLeft isRight follows
  have joins : orOperator? ⟨.word, "or", position⟩ = some .or := by
    simp [orOperator?, word_isWord position lower]
  have between : Token.Follows 2 ⟨.word, "or", position⟩ :=
    word_follows position lower (by decide) (by decide)
  exact (rereads_or isLeft isRight joins between nofun follows).mono (by omega)

/-- The token of a comparison. -/
def RelationalOp.tokenKind : RelationalOp → TokenKind
  | .equal => .equal
  | .notEqual => .notEqual
  | .less => .less
  | .lessOrEqual => .lessOrEqual
  | .greater => .greater
  | .greaterOrEqual => .greaterOrEqual
  | .like => .word

theorem RelationalOp.spellsToken (op : RelationalOp) :
    SpellsToken op.tokenKind op.symbol.toList := by
  cases op with
  | equal => exact ⟨'=', [], rfl, by decide, fun rest => rfl⟩
  | notEqual => exact ⟨'<', ['>'], rfl, by decide, fun rest => rfl⟩
  | less => exact ⟨'<', [], rfl, by decide, fun rest => rfl⟩
  | lessOrEqual => exact ⟨'<', ['='], rfl, by decide, fun rest => rfl⟩
  | greater => exact ⟨'>', [], rfl, by decide, fun rest => rfl⟩
  | greaterOrEqual => exact ⟨'>', ['='], rfl, by decide, fun rest => rfl⟩
  | like =>
    have isName : IsName "like".toList := by decide
    exact isName.spellsToken

/-- The token of a comparison is read as that comparison, and as no other word. -/
theorem RelationalOp.comparison?_token
    (op : RelationalOp)
    (position : Nat) :
    comparison? ⟨op.tokenKind, op.symbol, position⟩ = some op ∧
      Token.Follows 4 ⟨op.tokenKind, op.symbol, position⟩ ∧
      ∀ word, word ≠ "like" → Token.isWord word ⟨op.tokenKind, op.symbol, position⟩ = false := by
  have like : "like".toLower = "like" := Text.toLower_eq (by decide)
  cases op with
  | like =>
    refine ⟨?_, word_follows position like (by decide) (by decide), ?_⟩
    · simp [comparison?, RelationalOp.tokenKind, RelationalOp.symbol, word_isWord position like]
    · intro word other
      simp [Token.isWord, Token.lower, RelationalOp.tokenKind, RelationalOp.symbol, like,
        Ne.symm other]
  | _ =>
    simp [comparison?, RelationalOp.tokenKind, Token.Follows, Token.binding, Token.isWord]

theorem Expr.readsBack_relational
    (op : RelationalOp)
    (backLeft : left.ReadsBack source)
    (backRight : right.ReadsBack source) :
    (Expr.relational op left right).ReadsBack source := by
  refine readsBack_of_parentheses rfl nofun (Opens left.opening?)
    (toList_operator left.text op.symbol right.text)
    (readsBackAs_operator backLeft backRight op.spellsToken ?_)
    (sheltered_of_opening sheltered_relational_iff)
  intro position cost leftTokens rightTokens rest isLeft isRight follows
  rw [String.ofList_toList]
  obtain ⟨compares, between, otherWord⟩ := op.comparison?_token position
  have noClosing : op.tokenKind ≠ .rightParen := by cases op <;> decide
  exact rereads_relational isLeft isRight compares between noClosing
    ⟨otherWord "is" (by decide), otherWord "not" (by decide), otherWord "in" (by decide)⟩ follows

/-- The token of an arithmetic operator. -/
def ArithmeticOp.tokenKind : ArithmeticOp → TokenKind
  | .add => .plus
  | .subtract => .minus
  | .multiply => .star
  | .divide => .slash
  | .modulo => .percent

theorem ArithmeticOp.spellsToken (op : ArithmeticOp) :
    SpellsToken op.tokenKind op.symbol.toList := by
  cases op with
  | add => exact ⟨'+', [], rfl, by decide, fun rest => rfl⟩
  | subtract => exact ⟨'-', [], rfl, by decide, fun rest => rfl⟩
  | multiply => exact ⟨'*', [], rfl, by decide, fun rest => rfl⟩
  | divide => exact ⟨'/', [], rfl, by decide, fun rest => rfl⟩
  | modulo => exact ⟨'%', [], rfl, by decide, fun rest => rfl⟩

theorem Expr.readsBack_binary
    (op : ArithmeticOp)
    (backLeft : left.ReadsBack source)
    (backRight : right.ReadsBack source) :
    (Expr.binary op left right).ReadsBack source := by
  refine readsBack_of_parentheses rfl nofun (Opens left.opening?)
    (toList_operator left.text op.symbol right.text)
    (readsBackAs_operator backLeft backRight op.spellsToken ?_)
    (sheltered_of_opening sheltered_binary_iff)
  intro position cost leftTokens rightTokens rest isLeft isRight follows
  rw [String.ofList_toList]
  have symbolFollows
      {level : Nat}
      (loose : Token.binding ⟨op.tokenKind, op.symbol, position⟩ < level) :
      Token.Follows level ⟨op.tokenKind, op.symbol, position⟩ := by
    refine ⟨loose, ?_⟩
    cases op <;> simp [ArithmeticOp.tokenKind, Token.isWord]
  have noClosing : op.tokenKind ≠ .rightParen := by cases op <;> decide
  cases op with
  | add | subtract =>
    exact (rereads_binary_sum isLeft isRight rfl
      (symbolFollows (by simp [Token.binding, ArithmeticOp.tokenKind])) noClosing follows).mono
        (by omega)
  | multiply | divide | modulo =>
    exact (rereads_binary_product isLeft isRight rfl
      (symbolFollows (by simp [Token.binding, ArithmeticOp.tokenKind])) noClosing follows).mono
        (by omega)

/-! ### Operators in front of a tree and behind it -/

theorem Expr.readsBack_negate (back : e.ReadsBack source) : (Expr.negate e).ReadsBack source := by
  have text : (Expr.negate e).text.toList = '(' :: ('-' :: e.text.toList ++ [')']) := by
    show ("(-" ++ e.text ++ ")").toList = _
    simp
  refine readsBack_of_parentheses rfl nofun (fun token => token.kind = .minus) text ?_
    fun token isMinus => sheltered_negate_iff.trans
      (and_iff_left (by simp [Token.isWord, isMinus])).symm
  intro position placed
  obtain ⟨tokens, scans, isGroup⟩ := back (position + 1) placed.tail
  refine ⟨_, .minus scans, ⟨_, _, rfl, rfl⟩, fun rest follows => ?_⟩
  refine (rereads_negate isGroup rfl follows).mono ?_
  simp only [List.length_cons]
  omega

theorem Expr.readsBack_not (back : e.ReadsBack source) : (Expr.not e).ReadsBack source := by
  have lower : "not".toLower = "not" := Text.toLower_eq (by decide)
  have isName : IsName "not".toList := by decide
  have text : (Expr.not e).text.toList =
      '(' :: (("not".toList ++ ' ' :: e.text.toList) ++ [')']) := by
    show ("(not " ++ e.text ++ ")").toList = _
    simp
  refine readsBack_of_parentheses rfl nofun (fun token => token.isWord "not") text ?_
    fun token isNot => sheltered_not_iff.trans
      (and_iff_left (by simp [Token.isWord, lower_of_isWord isNot])).symm
  intro position placed
  obtain ⟨tokens, scans, isGroup⟩ := back _ placed.back.tail
  have isWord := word_isWord position lower
  have whole := isName.spellsToken.scans (Scans.space scans)
  refine ⟨_, whole, ⟨_, _, rfl, isWord⟩, fun rest follows => ?_⟩
  refine (rereads_not isGroup isWord follows).mono ?_
  simp only [List.length_cons]
  omega

/-- The words behind `is`. -/
theorem scans_nullTest (negated : Bool) (position : Nat) :
    ∃ notTokens nullToken,
      Scans position (if negated then "not null" else "null").toList (notTokens ++ [nullToken]) ∧
      nullToken.isWord "null" = true ∧
      ∀ rest, skipWord "not" (notTokens ++ nullToken :: rest) = (negated, nullToken :: rest) := by
  have lowerNot : "not".toLower = "not" := Text.toLower_eq (by decide)
  have lowerNull : "null".toLower = "null" := Text.toLower_eq (by decide)
  have isNot : IsName "not".toList := by decide
  have isNull : IsName "null".toList := by decide
  have scansNull (place : Nat) : Scans place "null".toList [⟨.word, "null", place⟩] :=
    .wholeName isNull place
  cases negated with
  | false =>
    refine ⟨[], ⟨.word, "null", position⟩, scansNull position, word_isWord position lowerNull, ?_⟩
    intro rest
    refine skipWord_eq_false.mpr ⟨rfl, ?_⟩
    simp [startsWithWord, Token.isWord, Token.lower, lowerNull]
  | true =>
    refine ⟨[⟨.word, "not", position⟩], _, isNot.spellsToken.scans (Scans.space (scansNull _)),
      word_isWord _ lowerNull, ?_⟩
    intro rest
    exact skipWord_eq_true.mpr ⟨_, rfl, word_isWord position lowerNot⟩

theorem Expr.readsBack_nullTest
    (negated : Bool)
    (back : e.ReadsBack source) :
    (Expr.nullTest e negated).ReadsBack source := by
  have lower : "is".toLower = "is" := Text.toLower_eq (by decide)
  have isName : IsName "is".toList := by decide
  have text : (Expr.nullTest e negated).text.toList =
      '(' :: ((e.text.toList ++ ' ' :: ("is".toList ++ ' ' ::
        (if negated then "not null" else "null").toList)) ++ [')']) := by
    show ("(" ++ e.text ++ (if negated then " is not null)" else " is null)")).toList = _
    cases negated <;> simp
  refine readsBack_of_parentheses rfl nofun (Opens e.opening?) text ?_
    (sheltered_of_opening sheltered_nullTest_iff)
  intro position placed
  obtain ⟨tokens, scans, isGroup⟩ := back position placed.front
  obtain ⟨notTokens, nullToken, scansNull, isNull, skips⟩ :=
    scans_nullTest negated (position + byteLength e.text.toList + 1 + byteLength "is".toList + 1)
  have scansBehind := Scans.space (isName.spellsToken.scans (Scans.space scansNull))
  rw [String.ofList_toList] at scansBehind
  generalize position + byteLength e.text.toList + 1 = place at scansBehind
  have whole := scans.append (separated_cons (by decide)) scansBehind
  obtain ⟨first, others, equal, opens⟩ := isGroup.opens
  refine ⟨_, whole, ⟨first, _, by rw [equal]; rfl, opens⟩, fun rest follows => ?_⟩
  refine (rereads_nullTest isGroup (word_isWord place lower) (skips rest) isNull follows).mono ?_
  simp only [List.length_append, List.length_cons]
  omega

theorem Expr.texts_eq_map (es : List Expr) : Expr.texts es = es.map Expr.text := by
  induction es with
  | nil => rfl
  | cons e es inductionHypothesis => rw [Expr.texts, inductionHypothesis, List.map_cons]

theorem Expr.readsBack_oneOf
    {candidates : List Expr}
    (back : e.ReadsBack source)
    (backEach : ∀ candidate ∈ candidates, candidate.ReadsBack source) :
    (Expr.oneOf e candidates).ReadsBack source := by
  have lower : "in".toLower = "in" := Text.toLower_eq (by decide)
  have isName : IsName "in".toList := by decide
  have text : (Expr.oneOf e candidates).text.toList =
      '(' :: ((e.text.toList ++ ' ' :: ("in".toList ++ ' ' ::
        '(' :: ((Text.commaList (candidates.map Expr.text)).toList ++ [')']))) ++ [')']) := by
    show ("(" ++ e.text ++ " in (" ++ Text.commaList (Expr.texts candidates) ++ "))").toList = _
    simp [Expr.texts_eq_map]
  refine readsBack_of_parentheses rfl nofun (Opens e.opening?) text ?_
    (sheltered_of_opening sheltered_oneOf_iff)
  intro position placed
  obtain ⟨tokens, scans, isGroup⟩ := back position placed.front
  obtain ⟨opening, listTokens, scansList, -, retakes⟩ := parenthesized_readsBack
    (fun candidate member => (backEach candidate member).sum) sum_matches
    (fun position => comma_follows position 3) (fun position => rightParen_follows position 3)
    (fun candidate token opens => opens.noClosing) placed.back.tail.back.tail
  have scansBehind := Scans.space (isName.spellsToken.scans (Scans.space scansList))
  rw [String.ofList_toList] at scansBehind
  generalize position + byteLength e.text.toList + 1 = place at scansBehind
  have whole := scans.append (separated_cons (by decide)) scansBehind
  obtain ⟨first, others, equal, opens⟩ := isGroup.opens
  refine ⟨_, whole, ⟨first, _, by rw [equal]; rfl, opens⟩, fun rest follows => ?_⟩
  have cost : 16 * tokens.length ≤ 16 * (tokens.length + listTokens.length + 2) := by omega
  refine (rereads_oneOf (isGroup.mono cost) (word_isWord place lower)
    ((retakes rest).mono (by omega)) follows).mono ?_
  simp only [List.length_append, List.length_cons]
  omega

end ObjectQuery
