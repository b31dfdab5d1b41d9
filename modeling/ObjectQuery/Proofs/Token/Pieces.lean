import Mathlib
import ObjectQuery.Proofs.Text.Quoted
import ObjectQuery.Token.Lexer

/-!
Contract: which piece a text begins with.

A piece is known from its own characters and from the one behind it. A character that goes on with
no piece leaves the pieces in front of it as they are, whatever follows.

Owns:
- `isSeparator` and `firstPiece_append_iff`;
- the pieces of names, numbers, strings and single symbols;
- the characters that a piece of a kind has.

Does not own: rows of tokens.
-/

namespace ObjectQuery

variable {c : Char} {text rest : List Char} {kind : TokenKind}

/-- A character that begins a piece or stands between pieces, and goes on with none. -/
def isSeparator (c : Char) : Bool :=
  isTokenBlank c || ['(', ')', '\x7b', '\x7d', '[', ']', ',', ':', ';', '?', '+', '-', '*', '/',
    '%'].contains c

/-- Nothing follows, or a character that goes on with no piece. -/
def Separated (rest : List Char) : Prop :=
  ∀ c ∈ rest.head?, isSeparator c = true

theorem separated_nil : Separated [] := by
  simp [Separated]

theorem separated_cons (separator : isSeparator c = true) : Separated (c :: rest) := by
  simpa [Separated] using separator

/-- Every separator passes a test that passes on all of them. -/
theorem of_isSeparator
    (test : Char → Bool)
    (passes : [' ', '\t', '\r', '\n', '\x0c', '(', ')', '\x7b', '\x7d', '[', ']', ',', ':', ';', '?',
      '+', '-', '*', '/', '%'].all test = true)
    (separator : isSeparator c = true) :
    test c = true := by
  apply List.all_eq_true.mp passes
  simp [isSeparator, isTokenBlank] at separator ⊢
  grind

theorem isWordPart_of_isSeparator (separator : isSeparator c = true) : isWordPart c = false := by
  have outside := of_isSeparator (fun c => !isWordPart c) (by decide) separator
  simpa using outside

theorem isNumberPart_of_isSeparator (separator : isSeparator c = true) :
    isNumberPart c = false := by
  have outside := of_isSeparator (fun c => !isNumberPart c) (by decide) separator
  simpa using outside

theorem ne_quote_of_isSeparator (separator : isSeparator c = true) : c ≠ '\'' := by
  have other := of_isSeparator (fun c => c != '\'') (by decide) separator
  simpa using other

/-- Few characters make a longer symbol of the character in front of them. -/
theorem symbolAt?_of_not_mem
    (plain : c ∉ ['>', '=', '&', '|'])
    (first : Char) :
    symbolAt? first (some c) = symbolAt? first none := by
  simp only [List.mem_cons, List.not_mem_nil, or_false, not_or] at plain
  unfold symbolAt?
  split <;> first | contradiction | rfl | simp_all

theorem symbolAt?_of_isSeparator
    (separator : isSeparator c = true)
    (first : Char) :
    symbolAt? first (some c) = symbolAt? first none := by
  apply symbolAt?_of_not_mem
  have plain := of_isSeparator (fun c => c ∉ ['>', '=', '&', '|']) (by decide) separator
  exact of_decide_eq_true plain

theorem takeWhile_append_of_separated
    {isPart : Char → Bool}
    (separated : ∀ c ∈ rest.head?, isPart c = false)
    (text : List Char) :
    (text ++ rest).takeWhile isPart = text.takeWhile isPart := by
  induction text with
  | nil =>
    cases rest with
    | nil => rfl
    | cons c rest => simp [separated c rfl]
  | cons c text inductionHypothesis =>
    by_cases part : isPart c = true
    · simp [part, inductionHypothesis]
    · simp [part]

/-! ### Strings -/

theorem firstPiece_quote (text : List Char) :
    firstPiece '\'' text =
      match Text.Quoted.scan '\'' text with
      | some (_, after) => (some .string, text.length - after.length)
      | none => (none, text.length) := by
  rfl

/-- A text behind a quote begins with a string exactly when it goes on with a written quotation. -/
theorem firstPiece_quote_eq_iff {more : Nat} :
    firstPiece '\'' text = (some kind, more) ↔
      kind = .string ∧ ∃ content after,
        text = Text.Quoted.escape '\'' content ++ '\'' :: after ∧ after.head? ≠ some '\'' ∧
          more = (Text.Quoted.escape '\'' content).length + 1 := by
  rw [firstPiece_quote]
  constructor
  · intro first
    split at first
    · rename_i content after found
      obtain ⟨split, outside⟩ := Text.Quoted.scan_eq_some_iff.mp found
      simp only [Prod.mk.injEq, Option.some.injEq] at first
      refine ⟨first.1.symm, content, after, split, outside, ?_⟩
      rw [← first.2, split, List.length_append, List.length_cons]
      omega
    · simp at first
  · rintro ⟨rfl, content, after, rfl, outside, rfl⟩
    rw [Text.Quoted.scan_escape_append content outside]
    simp only [Prod.mk.injEq, true_and, List.length_append, List.length_cons]
    omega

/-! ### Any piece -/

/-- What stands behind a separator has no part in the first piece. -/
theorem firstPiece_append_of_ne_quote
    (solid : isTokenBlank c = false)
    (noQuote : c ≠ '\'')
    (separated : Separated rest)
    (text : List Char) :
    firstPiece c (text ++ rest) = firstPiece c text := by
  have words : (text ++ rest).takeWhile isWordPart = text.takeWhile isWordPart :=
    takeWhile_append_of_separated (fun d head => isWordPart_of_isSeparator (separated d head)) text
  have numbers : (text ++ rest).takeWhile isNumberPart = text.takeWhile isNumberPart :=
    takeWhile_append_of_separated (fun d head => isNumberPart_of_isSeparator (separated d head)) text
  have symbols : symbolAt? c (text ++ rest).head? = symbolAt? c text.head? := by
    cases text with
    | cons d text => rfl
    | nil =>
      cases rest with
      | nil => rfl
      | cons d rest => exact symbolAt?_of_isSeparator (separated d rfl) c
  unfold firstPiece
  rw [words, numbers, symbols]
  simp [solid, noQuote]

/-- A piece that ends in front of a separator is the same without what follows. -/
theorem firstPiece_append_iff
    {more : Nat}
    (solid : isTokenBlank c = false)
    (separated : Separated rest)
    (inside : more ≤ text.length) :
    firstPiece c (text ++ rest) = (some kind, more) ↔ firstPiece c text = (some kind, more) := by
  by_cases quote : c = '\''
  · subst quote
    rw [firstPiece_quote_eq_iff, firstPiece_quote_eq_iff]
    constructor
    · rintro ⟨rfl, content, after, split, outside, rfl⟩
      -- The quotation ends within `text`, so `after` ends in `rest`.
      obtain ⟨behind, rfl⟩ : ∃ behind, text = Text.Quoted.escape '\'' content ++ '\'' :: behind := by
        have front : Text.Quoted.escape '\'' content ++ ['\''] <+: text := by
          have first : Text.Quoted.escape '\'' content ++ ['\''] <+: text ++ rest :=
            ⟨after, by rw [split]; simp⟩
          have second : text <+: text ++ rest := List.prefix_append text rest
          exact List.prefix_of_prefix_length_le first second (by simpa using inside)
        obtain ⟨behind, equal⟩ := front
        exact ⟨behind, by rw [← equal]; simp⟩
      obtain rfl : behind ++ rest = after := by simpa using split
      refine ⟨rfl, content, behind, rfl, ?_, rfl⟩
      intro head
      exact outside (by simp [head])
    · rintro ⟨rfl, content, after, rfl, outside, rfl⟩
      refine ⟨rfl, content, after ++ rest, by simp, ?_, rfl⟩
      cases after with
      | cons d after => exact outside
      | nil =>
        intro head
        exact ne_quote_of_isSeparator (separated '\'' head) rfl
  · rw [firstPiece_append_of_ne_quote solid quote separated]

/-! ### Names and numbers -/

/-- The characters of a name: a letter or underscore, then letters, digits and underscores. -/
def IsName (name : List Char) : Prop :=
  ∃ c parts, name = c :: parts ∧ isWordStart c = true ∧ ∀ d ∈ parts, isWordPart d = true

theorem isName_cons_iff {parts : List Char} :
    IsName (c :: parts) ↔ isWordStart c = true ∧ ∀ d ∈ parts, isWordPart d = true := by
  constructor
  · rintro ⟨first, others, equal, start, inside⟩
    obtain ⟨rfl, rfl⟩ := List.cons.inj equal
    exact ⟨start, inside⟩
  · rintro ⟨start, inside⟩
    exact ⟨c, parts, rfl, start, inside⟩

instance (name : List Char) : Decidable (IsName name) :=
  match name with
  | [] => .isFalse (by simp [IsName])
  | c :: parts =>
    decidable_of_iff (isWordStart c = true ∧ parts.all isWordPart = true) (by
      rw [isName_cons_iff, List.all_eq_true])

/-- The characters of a number: a digit, then digits and points. -/
def IsNumber (number : List Char) : Prop :=
  ∃ c parts, number = c :: parts ∧ c.isDigit = true ∧ ∀ d ∈ parts, isNumberPart d = true

/-- Every blank passes a test that passes on all of them. -/
theorem of_isTokenBlank
    (test : Char → Bool)
    (passes : [' ', '\t', '\r', '\n', '\x0c'].all test = true)
    (blank : isTokenBlank c = true) :
    test c = true := by
  apply List.all_eq_true.mp passes
  simpa [isTokenBlank, or_assoc] using blank

theorem isTokenBlank_of_isWordStart (start : isWordStart c = true) : isTokenBlank c = false := by
  rw [Bool.eq_false_iff]
  intro blank
  have outside := of_isTokenBlank (fun c => !isWordStart c) (by decide) blank
  simp [start] at outside

theorem isTokenBlank_of_isDigit (isDigit : c.isDigit = true) : isTokenBlank c = false := by
  rw [Bool.eq_false_iff]
  intro blank
  have outside := of_isTokenBlank (fun c => !c.isDigit) (by decide) blank
  simp [isDigit] at outside

theorem isDigit_of_isWordStart (start : isWordStart c = true) : c.isDigit = false := by
  rw [Bool.eq_false_iff]
  intro isDigit
  rw [isWordStart, Bool.or_eq_true, beq_iff_eq] at start
  rcases start with letter | rfl
  · simp only [Char.isAlpha, Char.isUpper, Char.isLower, Char.isDigit, Bool.or_eq_true,
      Bool.and_eq_true, decide_eq_true_eq, ge_iff_le, UInt32.le_iff_toNat_le] at letter isDigit
    simp at letter isDigit
    grind
  · exact absurd isDigit (by decide)

theorem takeWhile_append_exact
    {isPart : Char → Bool}
    {parts : List Char}
    (inside : ∀ d ∈ parts, isPart d = true)
    (boundary : ∀ d ∈ rest.head?, isPart d = false) :
    (parts ++ rest).takeWhile isPart = parts := by
  rw [← List.append_nil parts, List.append_assoc, List.takeWhile_append_of_pos inside,
    takeWhile_append_of_separated boundary, List.takeWhile_nil, List.append_nil]

theorem firstPiece_name
    {parts : List Char}
    (start : isWordStart c = true)
    (inside : ∀ d ∈ parts, isWordPart d = true)
    (boundary : ∀ d ∈ rest.head?, isWordPart d = false) :
    firstPiece c (parts ++ rest) = (some .word, parts.length) := by
  unfold firstPiece
  rw [takeWhile_append_exact inside boundary]
  simp [isTokenBlank_of_isWordStart start, isDigit_of_isWordStart start, start]

theorem firstPiece_number
    {parts : List Char}
    (start : c.isDigit = true)
    (inside : ∀ d ∈ parts, isNumberPart d = true)
    (boundary : ∀ d ∈ rest.head?, isNumberPart d = false) :
    firstPiece c (parts ++ rest) = (some .number, parts.length) := by
  unfold firstPiece
  rw [takeWhile_append_exact inside boundary]
  simp [isTokenBlank_of_isDigit start, start]

/-! ### What a piece is made of -/

/-- The symbols and how each is spelled. -/
def symbols : List (TokenKind × List Char) :=
  [ (.notEqual, ['<', '>']), (.notEqual, ['!', '=']), (.lessOrEqual, ['<', '=']),
    (.greaterOrEqual, ['>', '=']), (.equal, ['=', '=']), (.doubleAmpersand, ['&', '&']),
    (.doubleBar, ['|', '|']), (.leftParen, ['(']), (.rightParen, [')']), (.leftCurly, ['\x7b']),
    (.rightCurly, ['\x7d']), (.leftBracket, ['[']), (.rightBracket, [']']), (.comma, [',']),
    (.dot, ['.']), (.colon, [':']), (.semicolon, [';']), (.question, ['?']), (.plus, ['+']),
    (.minus, ['-']), (.star, ['*']), (.slash, ['/']), (.percent, ['%']), (.bang, ['!']),
    (.equal, ['=']), (.less, ['<']), (.greater, ['>']) ]

theorem mem_symbols_of_symbolAt?
    {next : Option Char}
    {more : Nat}
    (found : symbolAt? c next = some (kind, more)) :
    (kind, c :: next.toList.take more) ∈ symbols ∧ more ≤ next.toList.length := by
  unfold symbolAt? at found
  split at found <;> cases found <;> exact ⟨List.contains_iff_mem.mp rfl, by simp⟩

/-- A symbol found at the head of a text is one of the list. -/
theorem symbol_of_symbolAt?
    {more : Nat}
    (found : symbolAt? c text.head? = some (kind, more)) :
    (kind, c :: text.take more) ∈ symbols ∧ more ≤ text.length := by
  obtain ⟨member, few⟩ := mem_symbols_of_symbolAt? found
  cases text with
  | nil =>
    obtain rfl : more = 0 := by simpa using few
    exact ⟨member, Nat.le_refl 0⟩
  | cons d text =>
    have short : more ≤ 1 := by simpa using few
    refine ⟨?_, Nat.le_trans short (by simp)⟩
    obtain rfl | rfl : more = 0 ∨ more = 1 := by omega
    · exact member
    · simpa using member

/-- A piece does not reach beyond its text. -/
theorem firstPiece_le
    {more : Nat}
    (first : firstPiece c text = (some kind, more)) :
    more ≤ text.length := by
  by_cases quote : c = '\''
  · subst quote
    obtain ⟨rfl, content, after, rfl, -, rfl⟩ := firstPiece_quote_eq_iff.mp first
    simp
  · unfold firstPiece at first
    have runs (isPart : Char → Bool) : (text.takeWhile isPart).length ≤ text.length :=
      (List.takeWhile_sublist isPart).length_le
    split at first
    · obtain ⟨-, rfl⟩ := Prod.mk.inj first
      exact runs _
    · split at first
      · obtain ⟨-, rfl⟩ := Prod.mk.inj first
        exact runs _
      · split at first
        · obtain ⟨-, rfl⟩ := Prod.mk.inj first
          exact runs _
        · split at first
          · rename_i kind' more' symbol
            obtain ⟨-, rfl⟩ := Prod.mk.inj first
            exact (symbol_of_symbolAt? symbol).2
          · simp at first

/-- What the characters of a piece say about a kind. -/
def TokenKind.Spelled : TokenKind → List Char → Prop
  | .word, text => IsName text
  | .number, text => IsNumber text
  | .string, text => ∃ content, text = '\'' :: Text.Quoted.escape '\'' content ++ ['\'']
  | .leftParen, text => text = ['(']
  | .rightParen, text => text = [')']
  | .blank, text => ∀ c ∈ text, isTokenBlank c = true
  | _, _ => True

theorem spelled_of_mem_symbols : ∀ symbol ∈ symbols, symbol.1.Spelled symbol.2 := by
  simp [symbols, TokenKind.Spelled]

theorem of_mem_takeWhile
    {isPart : Char → Bool}
    {d : Char}
    (member : d ∈ text.takeWhile isPart) :
    isPart d = true :=
  List.all_eq_true.mp List.all_takeWhile d member

theorem takeWhile_length_take {isPart : Char → Bool} (text : List Char) :
    text.take (text.takeWhile isPart).length = text.takeWhile isPart :=
  List.prefix_iff_eq_take.mp (List.takeWhile_prefix isPart) |>.symm

/-- A piece is spelled as its kind asks. -/
theorem spelled_of_firstPiece
    {more : Nat}
    (first : firstPiece c text = (some kind, more)) :
    kind.Spelled (c :: text.take more) := by
  by_cases quote : c = '\''
  · subst quote
    obtain ⟨rfl, content, after, rfl, -, rfl⟩ := firstPiece_quote_eq_iff.mp first
    refine ⟨content, ?_⟩
    rw [List.take_append, List.take_of_length_le (by omega)]
    simp
  · unfold firstPiece at first
    split at first
    · rename_i blank
      simp only [Prod.mk.injEq, Option.some.injEq] at first
      obtain ⟨rfl, rfl⟩ := first
      rw [takeWhile_length_take]
      intro d member
      rcases List.mem_cons.mp member with rfl | inside
      · exact blank
      · exact of_mem_takeWhile inside
    · split at first
      · rename_i isDigit
        simp only [Prod.mk.injEq, Option.some.injEq] at first
        obtain ⟨rfl, rfl⟩ := first
        rw [takeWhile_length_take]
        exact ⟨c, _, rfl, isDigit, fun d inside => of_mem_takeWhile inside⟩
      · split at first
        · rename_i start
          simp only [Prod.mk.injEq, Option.some.injEq] at first
          obtain ⟨rfl, rfl⟩ := first
          rw [takeWhile_length_take]
          exact ⟨c, _, rfl, start, fun d inside => of_mem_takeWhile inside⟩
        · split at first
          · rename_i kind' more' symbol
            simp only [Prod.mk.injEq, Option.some.injEq] at first
            obtain ⟨rfl, rfl⟩ := first
            exact spelled_of_mem_symbols _ (symbol_of_symbolAt? symbol).1
          · simp at first

/-- A piece is a run of blanks, a number, a word or a string, or it is a symbol. -/
theorem symbol_of_firstPiece {count : Nat} (first : firstPiece c text = (some kind, count)) :
    kind ∈ [.blank, .number, .word, .string] ∨ (kind, c :: text.take count) ∈ symbols := by
  have of_run {kind' : TokenKind} {count' : Nat} (isRun : kind' ∈ [.blank, .number, .word, .string])
      (same : (some kind', count') = (some kind, count)) :
      kind ∈ [.blank, .number, .word, .string] := by
    obtain ⟨equal, -⟩ := Prod.mk.inj same
    exact Option.some.inj equal ▸ isRun
  unfold firstPiece at first
  split at first
  · exact .inl (of_run (by decide) first)
  · split at first
    · exact .inl (of_run (by decide) first)
    · split at first
      · exact .inl (of_run (by decide) first)
      · split at first
        · split at first
          · exact .inl (of_run (by decide) first)
          · simp at first
        · split at first
          · next kind' count' symbol =>
            obtain ⟨equal, rfl⟩ := Prod.mk.inj first
            obtain rfl := Option.some.inj equal
            exact .inr (symbol_of_symbolAt? symbol).1
          · simp at first

end ObjectQuery
