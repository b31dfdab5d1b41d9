import ObjectQuery.Text.Quoted

/-!
Contract: the tokens of query text.

Owns: `TokenKind`, `Token`, the words and descriptions that parsing and its errors use.

Does not own: cutting a text into tokens.
-/

namespace ObjectQuery

/-- The kinds of tokens. Words of the language and names share the kind `word`. -/
inductive TokenKind where
  | endOfInput
  | blank
  | number
  | string
  | word
  | leftParen
  | rightParen
  | leftCurly
  | rightCurly
  | leftBracket
  | rightBracket
  | comma
  | dot
  | colon
  | semicolon
  | question
  | plus
  | minus
  | star
  | slash
  | percent
  | bang
  | equal
  | notEqual
  | less
  | greater
  | lessOrEqual
  | greaterOrEqual
  | doubleAmpersand
  | doubleBar
deriving DecidableEq, Repr

namespace TokenKind

/-- The spelling that stands for a symbol in messages; none for the kinds with a text of their
own. -/
def symbol? : TokenKind → Option String
  | .endOfInput | .blank | .number | .string | .word => none
  | .leftParen => some "("
  | .rightParen => some ")"
  | .leftCurly => some "\x7b"
  | .rightCurly => some "\x7d"
  | .leftBracket => some "["
  | .rightBracket => some "]"
  | .comma => some ","
  | .dot => some "."
  | .colon => some ":"
  | .semicolon => some ";"
  | .question => some "?"
  | .plus => some "+"
  | .minus => some "-"
  | .star => some "*"
  | .slash => some "/"
  | .percent => some "%"
  | .bang => some "!"
  | .equal => some "="
  | .notEqual => some "<>"
  | .less => some "<"
  | .greater => some ">"
  | .lessOrEqual => some "<="
  | .greaterOrEqual => some ">="
  | .doubleAmpersand => some "&&"
  | .doubleBar => some "||"

/-- What messages call a token of this kind: a symbol in quotes, or a description. -/
def describe (kind : TokenKind) : String :=
  match kind.symbol? with
  | some symbol => "'" ++ symbol ++ "'"
  | none =>
    match kind with
    | .endOfInput => "end of input"
    | .blank => "whitespace"
    | .number => "number"
    | .string => "string"
    | _ => "identifier"

end TokenKind

/-- A piece of the source with its place, counted in bytes from the start. -/
structure Token where
  kind : TokenKind
  text : String
  position : Nat
deriving DecidableEq, Repr

namespace Token

/-- The token behind the last piece of a source of that many bytes. -/
def endOfInput (position : Nat) : Token := ⟨.endOfInput, "", position⟩

/-- The text with its ASCII letters in lower case. -/
def lower (token : Token) : String :=
  token.text.toLower

/-- The token is this word of the language, in any letter case. -/
def isWord (word : String) (token : Token) : Bool :=
  token.kind == .word && token.lower == word

/-- The characters between the quotes of a string token, each doubled quote read as one. -/
def stringValue? (token : Token) : Option String :=
  if token.kind = .string ∧ 2 ≤ token.text.utf8ByteSize then
    some (String.ofList (Text.Quoted.unescape '\'' token.text.toList.tail.dropLast))
  else
    none

/-- What messages call the token. -/
def describe (token : Token) : String :=
  if token.kind = .endOfInput then "end of input" else "'" ++ token.text ++ "'"

end Token

end ObjectQuery
