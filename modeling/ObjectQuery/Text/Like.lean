/-!
Contract: wildcard patterns over a whole text.

A pattern is read character by character: `%` stands for any run of characters, the empty run and
line breaks included, `_` for exactly one character, and every other character for itself.

Owns:
- `Matches`, which says how a text is cut into one piece per pattern character;
- `like`, which decides it in one pass over the text per pattern character.
-/

namespace ObjectQuery.Text.Like

/-- The text is a row of pieces, one for each character of the pattern. -/
inductive Matches : List Char → List Char → Prop
  | nil : Matches [] []
  | run {pattern text : List Char} (piece : List Char) :
      Matches pattern text → Matches ('%' :: pattern) (piece ++ text)
  | one {pattern text : List Char} (c : Char) :
      Matches pattern text → Matches ('_' :: pattern) (c :: text)
  | self {pattern text : List Char} (c : Char) (plain : c ≠ '%' ∧ c ≠ '_') :
      Matches pattern text → Matches (c :: pattern) (c :: text)

/-- Each entry becomes true when it or a later one is. -/
def orLater : List Bool → List Bool
  | [] => []
  | b :: later =>
    let rest := orLater later
    (b || rest.headD false) :: rest

/-- One pattern character in front: a text fits when its first character does and the rest fits the
rest of the pattern. The table tells, for each suffix of the text but the whole one, whether it
fits. -/
def oneInFront (p : Char) : List Char → List Bool → List Bool
  | c :: text, fits :: rest => ((p = '_' || p = c) && fits) :: oneInFront p text rest
  | _, _ => [false]

/-- Tells for each suffix of the text, the longest first, whether it fits the pattern. -/
def suffixTable : List Char → List Char → List Bool
  | [], text => text.map (fun _ => false) ++ [true]
  | p :: pattern, text =>
    let table := suffixTable pattern text
    if p = '%' then orLater table else oneInFront p text table.tail

/-- The text as a whole fits the pattern. -/
def matchChars (pattern text : List Char) : Bool :=
  (suffixTable pattern text).headD false

end Like

/-- The text fits the pattern. -/
def like (text pattern : String) : Bool :=
  Like.matchChars pattern.toList text.toList

end ObjectQuery.Text
