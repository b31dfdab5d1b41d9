import Mathlib.Logic.Function.Defs
import ObjectQuery.Proofs.Text.Quoted
import ObjectQuery.Sql.Config

/-!
Contract: what a statement quotes can be told from the text around it.

A reader who knows the two delimiters finds the end of a quotation and what was quoted, whatever
stands behind, as long as that does not begin with the closing delimiter. Where it does, the reader
goes on past the end. Texts that are quoted alike are the same text.

Owns:
- `Quoted.read?`, the reader of a quotation;
- `SelfDelimiting`, the laws of a writer of quotations, and the writers that have them.

Does not own: tokens, and where a statement quotes.
-/

namespace ObjectQuery

namespace Text.Quoted

variable {opening closing : Char} {text content after : String}

/-- Reads a quotation from its opening delimiter: what was quoted, and the text behind it. -/
def read? (opening closing : Char) (text : String) : Option (String × String) :=
  match text.toList with
  | [] => none
  | c :: inner =>
    if c = opening then
      (scan closing inner).map fun (content, after) => (String.ofList content, String.ofList after)
    else
      none

theorem toList_quoteWith_append (opening closing : Char) (content after : String) :
    (quoteWith opening closing content ++ after).toList =
      opening :: (escape closing content.toList ++ closing :: after.toList) := by
  simp [quoteWith]

/-- Quotations are what is read, each as what was quoted, and only in front of a text that does not
begin with the closing delimiter. -/
theorem read?_eq_some_iff :
    read? opening closing text = some (content, after) ↔
      text = quoteWith opening closing content ++ after ∧ after.toList.head? ≠ some closing := by
  rw [← String.toList_inj, toList_quoteWith_append, read?]
  cases text.toList with
  | nil => simp
  | cons c inner =>
    by_cases opens : c = opening
    · have inLists :
          (scan closing inner).map (fun (content, after) =>
              (String.ofList content, String.ofList after)) = some (content, after) ↔
            scan closing inner = some (content.toList, after.toList) := by
        constructor
        · intro found
          obtain ⟨⟨inside, behind⟩, scanned, equal⟩ := Option.map_eq_some_iff.mp found
          rw [← (Prod.mk.inj equal).1, ← (Prod.mk.inj equal).2, String.toList_ofList,
            String.toList_ofList]
          exact scanned
        · intro scanned
          rw [scanned, Option.map_some]
          simp only [String.ofList_toList]
      show (if c = opening then _ else none) = some (content, after) ↔ _
      rw [if_pos opens, inLists, scan_eq_some_iff, opens, List.cons_inj_right]
    · simp [opens]

/-- A writer of quotations that can be told from the text behind them. -/
structure SelfDelimiting (opening closing : Char) (write : String → String) : Prop where
  /-- A quotation is read up to its end and as what was quoted exactly if the text behind it does
  not begin with the closing delimiter. -/
  read?_write_iff : ∀ content after,
    read? opening closing (write content ++ after) = some (content, after) ↔
      after.toList.head? ≠ some closing
  /-- Different texts are quoted differently. -/
  injective : Function.Injective write

theorem selfDelimiting_quoteWith (opening closing : Char) :
    SelfDelimiting opening closing (quoteWith opening closing) := by
  have reads (content after : String) :
      read? opening closing (quoteWith opening closing content ++ after) = some (content, after) ↔
        after.toList.head? ≠ some closing := by
    rw [read?_eq_some_iff]
    exact and_iff_right rfl
  refine ⟨reads, ?_⟩
  intro content content' same
  -- Nothing stands behind the two quotations, so both can be read.
  have first := (reads content "").mpr (by simp)
  have second := (reads content' "").mpr (by simp)
  rw [same, second] at first
  exact (congrArg Prod.fst (Option.some.inj first)).symm

end Text.Quoted

namespace Sql

/-- The three ways of quoting in a statement, each with its delimiters: texts as literals, and
identifiers for both engines. -/
theorem selfDelimiting_quotations :
    Text.Quoted.SelfDelimiting '\'' '\'' Text.quote ∧
      Text.Quoted.SelfDelimiting '[' ']' Dialect.sqlServer.quoteIdentifier ∧
      Text.Quoted.SelfDelimiting '"' '"' Dialect.postgres.quoteIdentifier := by
  refine ⟨?_, ?_, ?_⟩
  · exact Text.Quoted.selfDelimiting_quoteWith '\'' '\''
  · exact Text.Quoted.selfDelimiting_quoteWith '[' ']'
  · exact Text.Quoted.selfDelimiting_quoteWith '"' '"'

/-- A name that ends in closing brackets, in front of a column, and one in front of a bracket. -/
example :
    Text.Quoted.read? '[' ']' (Dialect.sqlServer.quoteIdentifier "na[me]]" ++ ".[id]") =
        some ("na[me]]", ".[id]") ∧
      Text.Quoted.read? '[' ']' (Dialect.sqlServer.quoteIdentifier "name" ++ "] ") = none :=
  ⟨by rfl, by rfl⟩

end Sql

end ObjectQuery
