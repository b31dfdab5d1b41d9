import ObjectQuery.Text.CaseTable

/-!
Contract: upper and lower case of whole texts by the full Unicode mapping.

Owns:
- `upper`, in which one character may become several (`ß` becomes `SS`);
- `lower`, in which a capital sigma at the end of a word becomes a final sigma.

Does not own: the comparison of words of the query language, which folds ASCII letters only.
-/

namespace ObjectQuery.Text

open CaseTable

/-- The code point lies in one of the ranges. -/
def inRanges (ranges : List (Nat × Nat)) (code : Nat) : Bool :=
  ranges.any fun range => range.1 ≤ code && code ≤ range.2

/-- The image under the first run that holds the code point, else the character itself. -/
def mapByRuns (runs : List Run) (c : Char) : Char :=
  match runs.findSome? (fun run => run.image? c.toNat) with
  | some code => Char.ofNat code
  | none => c

/-- The upper-case form of one character. -/
def upperChar (c : Char) : List Char :=
  if c.toNat < 0x80 then
    [c.toUpper]
  else
    match upperExpansions.lookup c.toNat with
    | some codes => codes.map Char.ofNat
    | none => [mapByRuns upperRuns c]

/-- A cased letter that a search for a cased neighbour stops at. -/
def isCased (c : Char) : Bool :=
  inRanges casedRanges c.toNat

/-- A character that a search for a cased neighbour passes over. -/
def isIgnorable (c : Char) : Bool :=
  inRanges ignorableRanges c.toNat

/-- The nearest character that is not passed over is a cased letter. -/
def meetsCased (neighbours : List Char) : Bool :=
  match neighbours.dropWhile isIgnorable with
  | [] => false
  | c :: _ => isCased c

/-- The lower-case form of one character with the text before it (nearest first) and after it. A
capital sigma is final when a cased letter stands before it and none after it. -/
def lowerChar (before : List Char) (c : Char) (after : List Char) : List Char :=
  if c.toNat < 0x80 then
    [c.toLower]
  else if c.toNat = 0x3A3 then
    if meetsCased before && !meetsCased after then [Char.ofNat 0x3C2] else [Char.ofNat 0x3C3]
  else if c.toNat = 0x130 then
    ['i', Char.ofNat 0x307]
  else
    [mapByRuns lowerRuns c]

/-- The rest of a text in lower case, behind the text before it (nearest first). -/
def lowerChars (before : List Char) : List Char → List Char
  | [] => []
  | c :: after => lowerChar before c after ++ lowerChars (c :: before) after

/-- The text in lower case. -/
def lower (text : String) : String :=
  String.ofList (lowerChars [] text.toList)

/-- The text in upper case. -/
def upper (text : String) : String :=
  String.ofList (text.toList.flatMap upperChar)

end ObjectQuery.Text
