/-!
Contract: several texts as one.

Owns: `commaList`.
-/

namespace ObjectQuery.Text

/-- Texts joined by a comma and a blank. -/
def commaList (texts : List String) : String :=
  ", ".intercalate texts

end ObjectQuery.Text
