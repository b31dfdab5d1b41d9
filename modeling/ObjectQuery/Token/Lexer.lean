import ObjectQuery.Error

/-!
Contract: query text cut into tokens.

At each place the longest token is taken. A string whose quotes do not close takes all that is left
and is no token; any other character that starts no token is refused alone.

Owns:
- `Lexeme`, the first piece of a text;
- `Lexer`, which hands out tokens one by one and can go on after a refused piece;
- `Token.scan` and `tokenize`, which read a whole text.
-/

namespace ObjectQuery

/-- The blanks between tokens. -/
def isTokenBlank (c : Char) : Bool :=
  c == ' ' || c == '\t' || c == '\r' || c == '\n' || c == '\x0c'

/-- A character that a number may have after its first digit. -/
def isNumberPart (c : Char) : Bool :=
  c.isDigit || c == '.'

/-- A character that a word may begin with. -/
def isWordStart (c : Char) : Bool :=
  c.isAlpha || c == '_'

/-- A character that a word may go on with. -/
def isWordPart (c : Char) : Bool :=
  c.isAlphanum || c == '_'

/-- The symbol that a character begins, given the character after it, and how many characters
follow the first one. -/
def symbolAt? (c : Char) (next : Option Char) : Option (TokenKind × Nat) :=
  match c, next with
  | '<', some '>' | '!', some '=' => some (.notEqual, 1)
  | '<', some '=' => some (.lessOrEqual, 1)
  | '>', some '=' => some (.greaterOrEqual, 1)
  | '=', some '=' => some (.equal, 1)
  | '&', some '&' => some (.doubleAmpersand, 1)
  | '|', some '|' => some (.doubleBar, 1)
  | '(', _ => some (.leftParen, 0)
  | ')', _ => some (.rightParen, 0)
  | '\x7b', _ => some (.leftCurly, 0)
  | '\x7d', _ => some (.rightCurly, 0)
  | '[', _ => some (.leftBracket, 0)
  | ']', _ => some (.rightBracket, 0)
  | ',', _ => some (.comma, 0)
  | '.', _ => some (.dot, 0)
  | ':', _ => some (.colon, 0)
  | ';', _ => some (.semicolon, 0)
  | '?', _ => some (.question, 0)
  | '+', _ => some (.plus, 0)
  | '-', _ => some (.minus, 0)
  | '*', _ => some (.star, 0)
  | '/', _ => some (.slash, 0)
  | '%', _ => some (.percent, 0)
  | '!', _ => some (.bang, 0)
  | '=', _ => some (.equal, 0)
  | '<', _ => some (.less, 0)
  | '>', _ => some (.greater, 0)
  | _, _ => none

/-- The kind of the piece that a text begins with, none for a refused one, and how many characters
of it follow the first. -/
def firstPiece (c : Char) (rest : List Char) : Option TokenKind × Nat :=
  if isTokenBlank c then
    (some .blank, (rest.takeWhile isTokenBlank).length)
  else if c.isDigit then
    (some .number, (rest.takeWhile isNumberPart).length)
  else if isWordStart c then
    (some .word, (rest.takeWhile isWordPart).length)
  else if c = '\'' then
    match Text.Quoted.scan '\'' rest with
    | some (_, after) => (some .string, rest.length - after.length)
    | none => (none, rest.length)
  else
    match symbolAt? c rest.head? with
    | some (kind, more) => (some kind, more)
    | none => (none, 0)

/-- The first piece of a text and what comes after it. -/
structure Lexeme where
  kind : Option TokenKind
  text : List Char
  rest : List Char
deriving DecidableEq, Repr

/-- The first piece of a text that begins with `c`. -/
def Lexeme.first (c : Char) (rest : List Char) : Lexeme :=
  let (kind, more) := firstPiece c rest
  ⟨kind, c :: rest.take more, rest.drop more⟩

theorem Lexeme.text_append_rest (c : Char) (rest : List Char) :
    (Lexeme.first c rest).text ++ (Lexeme.first c rest).rest = c :: rest := by
  simp [Lexeme.first]

theorem Lexeme.rest_length_le (c : Char) (rest : List Char) :
    (Lexeme.first c rest).rest.length ≤ rest.length := by
  simp [Lexeme.first]

/-- The number of bytes of a text. -/
def byteLength : List Char → Nat
  | [] => 0
  | c :: rest => c.utf8Size + byteLength rest

/-- A reader that hands out tokens one by one. -/
structure Lexer where
  rest : List Char
  position : Nat
  keepBlanks : Bool
  finished : Bool
deriving DecidableEq, Repr

/-- What a reader hands out: a token or an error, or nothing when it is read past its end. -/
inductive LexerStep where
  | token (token : Token)
  | failure (error : Error)
  | pastEnd
deriving DecidableEq, Repr

namespace Lexer

/-- A reader at the start of a text. -/
def start (keepBlanks : Bool) (source : String) : Lexer :=
  ⟨source.toList, 0, keepBlanks, false⟩

/-- The first token of the text that is left, at its position. -/
def nextFrom (keepBlanks : Bool) (position : Nat) : List Char → LexerStep × Lexer
  | [] => (.token (Token.endOfInput position), ⟨[], position, keepBlanks, true⟩)
  | c :: chars =>
    let piece := Lexeme.first c chars
    let after := position + byteLength piece.text
    match piece.kind with
    | none => (.failure (.invalidCharacter c position), ⟨piece.rest, after, keepBlanks, false⟩)
    | some kind =>
      if kind = .blank ∧ !keepBlanks then
        nextFrom keepBlanks after piece.rest
      else
        (.token ⟨kind, String.ofList piece.text, position⟩,
          ⟨piece.rest, after, keepBlanks, false⟩)
  termination_by chars => chars.length
  decreasing_by
    have := Lexeme.rest_length_le c chars
    simp only [List.length_cons]
    omega

/-- The next token, and the reader after it. After a refused piece reading goes on behind it. -/
def next (lexer : Lexer) : LexerStep × Lexer :=
  if lexer.finished then (.pastEnd, lexer)
  else nextFrom lexer.keepBlanks lexer.position lexer.rest

end Lexer

/-- The tokens of a text that starts at a position, without the end of input; the first refused
character is the error. -/
def Token.scanFrom (keepBlanks : Bool) (position : Nat) : List Char → Except Error (List Token)
  | [] => .ok []
  | c :: chars =>
    let piece := Lexeme.first c chars
    match piece.kind with
    | none => .error (.invalidCharacter c position)
    | some kind =>
      match Token.scanFrom keepBlanks (position + byteLength piece.text) piece.rest with
      | .error error => .error error
      | .ok tokens =>
        if kind = .blank ∧ !keepBlanks then .ok tokens
        else .ok (⟨kind, String.ofList piece.text, position⟩ :: tokens)
  termination_by chars => chars.length
  decreasing_by
    have := Lexeme.rest_length_le c chars
    simp only [List.length_cons]
    omega

/-- The tokens of a text without blanks and without the end of input. -/
def Token.scan (source : String) : Except Error (List Token) :=
  Token.scanFrom false 0 source.toList

/-- The tokens of a text; the last one is the end of input. -/
def tokenize (keepBlanks : Bool) (source : String) : Except Error (List Token) := do
  let tokens ← Token.scanFrom keepBlanks 0 source.toList
  pure (tokens ++ [Token.endOfInput source.utf8ByteSize])

end ObjectQuery
