/-!
Contract: white space in the sense of the Unicode property `White_Space`, and trimming by it.

Owns: `isBlank`, `trimStart`, `trimChars`.

Does not own: the blanks between the tokens of a query, which are ASCII only.
-/

namespace ObjectQuery.Text

/-- The characters with the property `White_Space`. -/
def isBlank (c : Char) : Bool :=
  let code := c.toNat
  (9 ≤ code && code ≤ 13) || code == 0x20 || code == 0x85 || code == 0xA0 || code == 0x1680 ||
    (0x2000 ≤ code && code ≤ 0x200A) || code == 0x2028 || code == 0x2029 || code == 0x202F ||
    code == 0x205F || code == 0x3000

/-- Drops the blanks in front. -/
def trimStart (text : List Char) : List Char :=
  text.dropWhile isBlank

/-- Drops the blanks at both ends. -/
def trimChars (text : List Char) : List Char :=
  (trimStart (trimStart text).reverse).reverse

end ObjectQuery.Text
