import ObjectQuery.Document.Number

/-!
Contract: JSON texts as trees.

The members of an object are kept in order, repeated names included, and a number is kept as it was
written.

Owns: `Json` and `Json.parse?`, which reads a whole text.

Does not own: what a document means, and numbers as integers and in floating point.
-/

namespace ObjectQuery

/-- A JSON value. A string or a name of a member is none when one of its escapes is half of a
surrogate pair without the other half, for which there is no text. -/
inductive Json where
  | null
  | boolean (value : Bool)
  | number (value : JsonNumber)
  | string (value : Option String)
  | array (elements : List Json)
  | object (members : List (Option String × Json))
deriving Repr, Inhabited

namespace Json

/-- The white space of JSON. -/
def isBlank (c : Char) : Bool :=
  c == ' ' || c == '\t' || c == '\n' || c == '\r'

/-- Drops white space in front. -/
def skipBlanks (text : List Char) : List Char :=
  text.dropWhile isBlank

/-- Drops a fixed text in front. -/
def skip? : List Char → List Char → Option (List Char)
  | [], text => some text
  | c :: expected, d :: text => if c = d then skip? expected text else none
  | _ :: _, [] => none

/-! ## Strings -/

/-- The value of a hexadecimal digit. -/
def hexDigit? (c : Char) : Option Nat :=
  if c.isDigit then some (c.toNat - '0'.toNat)
  else if 'a' ≤ c ∧ c ≤ 'f' then some (c.toNat - 'a'.toNat + 10)
  else if 'A' ≤ c ∧ c ≤ 'F' then some (c.toNat - 'A'.toNat + 10)
  else none

/-- Reads four hexadecimal digits. -/
def hexCode? : List Char → Option (Nat × List Char)
  | a :: b :: c :: d :: rest => do
    let code := ((← hexDigit? a) * 16 + (← hexDigit? b)) * 256
      + (← hexDigit? c) * 16 + (← hexDigit? d)
    pure (code, rest)
  | _ => none

/-- The code point is the first half of a surrogate pair. -/
def isHighHalf (code : Nat) : Bool :=
  0xD800 ≤ code && code < 0xDC00

/-- The code point is the second half of a surrogate pair. -/
def isLowHalf (code : Nat) : Bool :=
  0xDC00 ≤ code && code < 0xE000

/-- The character that two halves stand for. -/
def joinHalves (high low : Nat) : Char :=
  Char.ofNat (0x10000 + (high - 0xD800) * 0x400 + (low - 0xDC00))

/-- Reads the second half behind the first. -/
def lowHalf? : List Char → Option (Nat × List Char)
  | '\\' :: 'u' :: rest => (hexCode? rest).filter fun read => isLowHalf read.1
  | _ => none

/-- Reads what follows the `u` of an escape: a character, or none for a half without the other. -/
def unicodeEscape? (text : List Char) : Option (Option Char × List Char) :=
  (hexCode? text).map fun (code, rest) =>
    if isHighHalf code then
      match lowHalf? rest with
      | some (low, rest) => (some (joinHalves code low), rest)
      | none => (none, rest)
    else if isLowHalf code then (none, rest)
    else (some (Char.ofNat code), rest)

/-- Reads what follows a backslash. -/
def escape? : List Char → Option (Option Char × List Char)
  | '"' :: rest => some ('"', rest)
  | '\\' :: rest => some ('\\', rest)
  | '/' :: rest => some ('/', rest)
  | 'b' :: rest => some ('\x08', rest)
  | 'f' :: rest => some ('\x0c', rest)
  | 'n' :: rest => some ('\n', rest)
  | 'r' :: rest => some ('\r', rest)
  | 't' :: rest => some ('\t', rest)
  | 'u' :: rest => unicodeEscape? rest
  | _ => none

/-- Reads up to the closing quote; the characters read come out in reverse. Control characters have
to be escaped. -/
def stringBody? : Nat → List (Option Char) → List Char → Option (List (Option Char) × List Char)
  | 0, _, _ => none
  | _ + 1, _, [] => none
  | budget + 1, read, c :: rest =>
    if c = '"' then some (read, rest)
    else if c = '\\' then
      match escape? rest with
      | some (d, rest) => stringBody? budget (d :: read) rest
      | none => none
    else if c.toNat < 0x20 then none
    else stringBody? budget (some c :: read) rest

/-- Reads a string behind its opening quote. -/
def string? (budget : Nat) (text : List Char) : Option (Option String × List Char) :=
  (stringBody? budget [] text).map fun (read, rest) =>
    ((read.reverse.mapM id).map String.ofList, rest)

/-! ## Numbers -/

/-- Reads at least one digit. -/
def digits? (text : List Char) : Option (List Char × List Char) :=
  let digits := text.takeWhile Char.isDigit
  if digits.isEmpty then none else some (digits, text.dropWhile Char.isDigit)

/-- Reads an integer part, which has no zero in front of other digits. -/
def wholePart? : List Char → Option (List Char × List Char)
  | '0' :: rest =>
    match rest with
    | c :: _ => if c.isDigit then none else some (['0'], rest)
    | [] => some (['0'], [])
  | text => digits? text

/-- Reads the places behind a point, if there is one. -/
def fraction? : List Char → Option (List Char × List Char)
  | '.' :: rest => digits? rest
  | text => some ([], text)

/-- Reads an exponent, if there is one. -/
def exponent? : List Char → Option (Option Int × List Char)
  | c :: rest =>
    if c = 'e' ∨ c = 'E' then
      match rest with
      | '-' :: after => (digits? after).map fun (ds, rest) =>
          (some (-(Text.digitsValue ds : Int)), rest)
      | '+' :: after => (digits? after).map fun (ds, rest) =>
          (some (Text.digitsValue ds : Int), rest)
      | after => (digits? after).map fun (ds, rest) => (some (Text.digitsValue ds : Int), rest)
    else
      some (none, c :: rest)
  | [] => some (none, [])

/-- Reads a number without its sign. -/
def unsigned? (negative : Bool) (text : List Char) : Option (JsonNumber × List Char) := do
  let (whole, rest) ← wholePart? text
  let (places, rest) ← fraction? rest
  let (power, rest) ← exponent? rest
  pure (⟨negative, whole, places, power⟩, rest)

/-- Reads a number. -/
def number? : List Char → Option (JsonNumber × List Char)
  | '-' :: rest => unsigned? true rest
  | text => unsigned? false text

/-! ## Values -/

mutual

/-- Reads a value behind any white space. -/
def value? : Nat → List Char → Option (Json × List Char)
  | 0, _ => none
  | budget + 1, text =>
    match skipBlanks text with
    | '"' :: rest => (string? budget rest).map fun (s, rest) => (.string s, rest)
    | '[' :: rest =>
      match skipBlanks rest with
      | ']' :: after => some (.array [], after)
      | _ => (elements? budget rest).map fun (items, rest) => (.array items, rest)
    | '\x7b' :: rest =>
      match skipBlanks rest with
      | '\x7d' :: after => some (.object [], after)
      | _ => (members? budget rest).map fun (items, rest) => (.object items, rest)
    | 't' :: rest => (skip? ['r', 'u', 'e'] rest).map fun rest => (.boolean true, rest)
    | 'f' :: rest => (skip? ['a', 'l', 's', 'e'] rest).map fun rest => (.boolean false, rest)
    | 'n' :: rest => (skip? ['u', 'l', 'l'] rest).map fun rest => (.null, rest)
    | text => (number? text).map fun (n, rest) => (.number n, rest)

/-- Reads the elements of an array and its closing bracket. -/
def elements? : Nat → List Char → Option (List Json × List Char)
  | 0, _ => none
  | budget + 1, text =>
    match value? budget text with
    | none => none
    | some (first, rest) =>
      match skipBlanks rest with
      | ',' :: after =>
        (elements? budget after).map fun (others, rest) => (first :: others, rest)
      | ']' :: after => some ([first], after)
      | _ => none

/-- Reads the members of an object and its closing brace. -/
def members? : Nat → List Char → Option (List (Option String × Json) × List Char)
  | 0, _ => none
  | budget + 1, text =>
    match skipBlanks text with
    | '"' :: rest =>
      match string? budget rest with
      | none => none
      | some (name, rest) =>
        match skipBlanks rest with
        | ':' :: rest =>
          match value? budget rest with
          | none => none
          | some (content, rest) =>
            match skipBlanks rest with
            | ',' :: after =>
              (members? budget after).map fun (others, rest) => ((name, content) :: others, rest)
            | '\x7d' :: after => some ([(name, content)], after)
            | _ => none
        | _ => none
    | _ => none

end

/-- Reads a whole text as one value with white space around it. -/
def parse? (source : String) : Option Json :=
  let text := source.toList
  match value? (2 * text.length + 2) text with
  | some (result, rest) => if (skipBlanks rest).isEmpty then some result else none
  | none => none

end Json

end ObjectQuery
