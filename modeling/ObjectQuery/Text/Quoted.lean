/-!
Contract: quoted text whose closing delimiter is written twice inside.

Owns:
- `escape` and `unescape`, which double a delimiter and read the doubled one back;
- `scan`, which finds where a quoted text ends;
- `quoteWith`, the quoted form with its opening and closing delimiters.
-/

namespace ObjectQuery.Text.Quoted

/-- Writes the delimiter twice and every other character once. -/
def escape (delimiter : Char) : List Char → List Char
  | [] => []
  | c :: rest =>
    if c = delimiter then delimiter :: delimiter :: escape delimiter rest
    else c :: escape delimiter rest

/-- Reads two delimiters in a row as one, from the left. -/
def unescape (delimiter : Char) : List Char → List Char
  | [] => []
  | [c] => [c]
  | c :: d :: rest =>
    if c = delimiter ∧ d = delimiter then delimiter :: unescape delimiter rest
    else c :: unescape delimiter (d :: rest)

/-- Reads up to the closing delimiter: the characters that were quoted and the text after the
delimiter. A doubled delimiter belongs to the quoted characters. -/
def scan (delimiter : Char) : List Char → Option (List Char × List Char)
  | [] => none
  | [c] => if c = delimiter then some ([], []) else none
  | c :: d :: rest =>
    if c = delimiter then
      if d = delimiter then
        (scan delimiter rest).map fun (content, after) => (delimiter :: content, after)
      else
        some ([], d :: rest)
    else
      (scan delimiter (d :: rest)).map fun (content, after) => (c :: content, after)

/-- The text between an opening and a closing delimiter, the closing one doubled inside. -/
def quoteWith (opening closing : Char) (text : String) : String :=
  String.ofList (opening :: escape closing text.toList ++ [closing])

end ObjectQuery.Text.Quoted

namespace ObjectQuery.Text

/-- The text as a string literal: single quotes around it, each quote inside doubled. -/
def quote (text : String) : String :=
  Quoted.quoteWith '\'' '\'' text

end ObjectQuery.Text
