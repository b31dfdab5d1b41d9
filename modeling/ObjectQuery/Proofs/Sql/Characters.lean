import Mathlib
import ObjectQuery.Sql.Statement
import ObjectQuery.Proofs.Number.Decimal.Text
import ObjectQuery.Proofs.Sql.Alias

/-!
Contract: the characters that the small pieces of an SQL text are made of.

Whatever kind of character letters, digits and a few marks belong to, keywords, numbers,
placeholders and names of rows are made of that kind, and so are columns and tables when the names
of the schema are. Numbers, placeholders and names of rows have few of these characters.

Owns: `Text.Over`, `Text.Solid` and `Text.Numerical`, and one lemma for each piece.

Does not own: string literals, and what a kind of character is good for.
-/

namespace ObjectQuery

namespace Text

/-- All characters of a text are of a kind. -/
def Over (kind : Char → Prop) (text : String) : Prop :=
  ∀ c ∈ text.toList, kind c

/-- A letter, a digit or a mark that stands in a name, a number or a placeholder. -/
def Solid (c : Char) : Prop :=
  c.isAlphanum = true ∨ c ∈ ['.', '_', '@', '$', '[', ']', '"']

/-- A digit, or a mark or letter of a number, a placeholder or a name of a row. -/
def Numerical (c : Char) : Prop :=
  c.isDigit = true ∨ c ∈ ['.', '_', '@', '$', 'N', 'a', 'f', 'i', 'n', 'p', 's', 't', 'u', 'v', 'w',
    'x', 'y', 'z']

/-- A sign may stand in front of a number. -/
def OverSigned (kind : Char → Prop) (text : String) : Prop :=
  ∃ body : List Char, (text.toList = body ∨ text.toList = '-' :: body) ∧ ∀ c ∈ body, kind c

theorem solid_of_numerical (c : Char) (numerical : Numerical c) : Solid c := by
  rcases numerical with isDigit | isMark
  · exact .inl (by simp [Char.isAlphanum, isDigit])
  · have solid : ['.', '_', '@', '$', 'N', 'a', 'f', 'i', 'n', 'p', 's', 't', 'u', 'v', 'w', 'x', 'y',
        'z'].all fun c => c.isAlphanum || ['.', '_', '@', '$', '[', ']', '"'].contains c := by
      decide
    have isSolid := List.all_eq_true.mp solid c isMark
    rw [Bool.or_eq_true, List.contains_iff_mem] at isSolid
    exact isSolid

theorem solid_of_isLower {c : Char} (isLower : c.isLower = true) : Solid c :=
  .inl (by simp [Char.isAlphanum, Char.isAlpha, isLower])

variable {kind : Char → Prop} {first second text : String}

theorem Over.append (ofFirst : Over kind first) (ofSecond : Over kind second) :
    Over kind (first ++ second) := by
  intro c member
  rw [String.toList_append, List.mem_append] at member
  exact member.elim (ofFirst c) (ofSecond c)

theorem Over.signed (unsigned : Over kind text) : OverSigned kind text :=
  ⟨_, .inl rfl, unsigned⟩

theorem OverSigned.whole (signed : OverSigned kind text) (sign : kind '-') : Over kind text := by
  obtain ⟨body, plain | negative, inBody⟩ := signed
  · rw [Over, plain]
    exact inBody
  · rw [Over, negative]
    exact List.forall_mem_cons.mpr ⟨sign, inBody⟩

/-! ## Numbers -/

section

variable (numerical : ∀ c, Numerical c → kind c)

include numerical

theorem over_toString (n : Nat) : Over kind (toString n) := by
  intro c member
  rw [Sql.RowAlias.toList_toString] at member
  exact numerical c (.inl (isDigit_of_mem_toDigits member))

theorem signed_integer (n : Int) : OverSigned kind (toString n) := by
  cases n with
  | ofNat n => exact (over_toString numerical n).signed
  | negSucc n =>
    refine ⟨(toString (n + 1)).toList, .inr ?_, over_toString numerical (n + 1)⟩
    show ("-" ++ toString (n + 1)).toList = _
    rw [String.toList_append]
    rfl

/-- The digits of a decimal with its point. -/
theorem kind_of_mem_decimal {x : Decimal} {c : Char}
    (member : c ∈ x.wholeDigits ++ if x.scale = 0 then [] else '.' :: x.placeDigits) : kind c := by
  apply numerical
  rcases List.mem_append.mp member with whole | places
  · exact Or.inl (x.isDigit_of_mem_wholeDigits c whole)
  · split at places
    · cases places
    · rcases List.mem_cons.mp places with rfl | isPlace
      · simp [Numerical]
      · exact Or.inl (x.isDigit_of_mem_placeDigits c isPlace)

theorem signed_decimal (x : Decimal) : OverSigned kind x.text := by
  refine ⟨_, ?_, fun c => kind_of_mem_decimal numerical (x := x)⟩
  rw [Decimal.toList_text, List.append_assoc]
  cases x.negative
  · exact .inl rfl
  · exact .inr rfl

theorem over_decimal {x : Decimal} (unsigned : x.negative = false) : Over kind x.text := by
  intro c member
  rw [Decimal.toList_text, unsigned, List.append_assoc] at member
  exact kind_of_mem_decimal numerical member

/-- Digits and a point. -/
theorem kind_of_mem_positional {coefficient : Nat} {exponent : Int} {c : Char}
    (member : c ∈ positional coefficient exponent) : kind c := by
  have digits : ∀ d ∈ Nat.toDigits 10 coefficient, Numerical d :=
    fun d isDigit => .inl (isDigit_of_mem_toDigits isDigit)
  have zeros (count : Nat) : ∀ d ∈ List.replicate count '0', Numerical d := by
    intro d isZero
    rw [List.eq_of_mem_replicate isZero]
    exact .inl rfl
  have padded (count : Nat) :
      ∀ d ∈ List.replicate count '0' ++ Nat.toDigits 10 coefficient, Numerical d :=
    List.forall_mem_append.mpr ⟨zeros count, digits⟩
  apply numerical
  rw [positional] at member
  split at member
  · exact (List.mem_append.mp member).elim (digits c) (zeros _ c)
  · rcases List.mem_append.mp member with taken | behind
    · exact padded _ c (List.mem_of_mem_take taken)
    · rcases List.mem_cons.mp behind with rfl | dropped
      · simp [Numerical]
      · exact padded _ c (List.mem_of_mem_drop dropped)

theorem signed_binary (format : BinaryFormat) (bits : Nat) :
    OverSigned kind (binaryText format bits) := by
  have signed (negative : Bool) {body : List Char} (inBody : ∀ c ∈ body, kind c) :
      OverSigned kind (String.ofList (if negative then '-' :: body else body)) := by
    refine ⟨body, ?_, inBody⟩
    cases negative
    · exact .inl (String.toList_ofList ..)
    · exact .inr (String.toList_ofList ..)
  have letters {word : List Char} (inWord : ∀ c ∈ word, Numerical c) : ∀ c ∈ word, kind c :=
    fun c member => numerical c (inWord c member)
  rw [binaryText]
  split
  · exact Over.signed (letters (by simp [Numerical]))
  · exact signed _ (letters (by simp [Numerical]))
  · split
    · exact signed _ (letters (by simp [Numerical]))
    · exact signed _ fun c member => kind_of_mem_positional numerical member

end

end Text

/-! ## Keywords and names -/

namespace Sql

open Text (Over Solid Numerical)

theorem toNat_lt_of_isLower {c : Char} (isLower : c.isLower = true) : c.toNat < 0x80 := by
  simp only [Char.isLower, Bool.and_eq_true, decide_eq_true_eq] at isLower
  have atMost : c.toNat ≤ 'z'.toNat := UInt32.le_iff_toNat_le.mp isLower.2
  exact Nat.lt_of_le_of_lt atMost (by decide)

/-- The capital of a letter is a letter. -/
theorem isAlphanum_toUpper {c : Char} (isLower : c.isLower = true) :
    c.toUpper.isAlphanum = true := by
  simp [Char.isAlphanum, Char.isAlpha, isLower]

theorem mem_of_mem_escape {delimiter c : Char} {text : List Char}
    (member : c ∈ Text.Quoted.escape delimiter text) : c = delimiter ∨ c ∈ text := by
  induction text with
  | nil => cases member
  | cons d rest inductionHypothesis =>
    rw [Text.Quoted.escape] at member
    split at member <;> simp only [List.mem_cons] at member ⊢ <;> tauto

variable {kind : Char → Prop} (solid : ∀ c, Solid c → kind c) (config : Config)

include solid

theorem kind_of_mem_upperChar {c d : Char}
    (isLetter : c.isLower = true ∨ c = ' ' ∧ kind ' ')
    (member : d ∈ Text.upperChar c) : kind d := by
  rcases isLetter with isLower | ⟨rfl, blank⟩
  · rw [Text.upperChar, if_pos (toNat_lt_of_isLower isLower)] at member
    obtain rfl := List.mem_singleton.mp member
    exact solid _ (.inl (isAlphanum_toUpper isLower))
  · obtain rfl := List.mem_singleton.mp member
    exact blank

/-- Keywords are words in lower case, or several of them. -/
theorem over_keyword {word : String}
    (letters : ∀ c ∈ word.toList, c.isLower = true ∨ c = ' ' ∧ kind ' ') :
    Over kind (config.keyword word) := by
  rw [Config.keyword]
  split
  · intro c member
    rw [Text.upper, String.toList_ofList] at member
    obtain ⟨letter, isLetter, inUpper⟩ := List.mem_flatMap.mp member
    exact kind_of_mem_upperChar solid (letters letter isLetter) inUpper
  · intro c member
    rcases letters c member with isLower | ⟨rfl, blank⟩
    · exact solid c (Text.solid_of_isLower isLower)
    · exact blank

theorem over_identifier {name : String} (ofName : Over kind name) :
    Over kind (config.identifier name) := by
  rw [Config.identifier]
  split
  · have delimiters : kind config.dialect.delimiters.1 ∧ kind config.dialect.delimiters.2 := by
      cases config.dialect <;> exact ⟨solid _ (by simp [Solid, Dialect.delimiters]),
        solid _ (by simp [Solid, Dialect.delimiters])⟩
    intro c member
    rw [Dialect.quoteIdentifier, Text.Quoted.quoteWith, String.toList_ofList] at member
    simp only [List.cons_append, List.mem_cons, List.mem_append, List.not_mem_nil,
      or_false] at member
    rcases member with rfl | inside | rfl
    · exact delimiters.1
    · rcases mem_of_mem_escape inside with rfl | inName
      · exact delimiters.2
      · exact ofName c inName
    · exact delimiters.2
  · exact ofName

omit solid in
theorem over_stem (numerical : ∀ c, Numerical c → kind c) (depth : Nat) :
    Over kind (RowAlias.stem depth) := by
  intro c member
  apply numerical
  rcases RowAlias.stem_cases depth with found | ⟨-, spelled⟩
  · have letters : ∀ letter ∈ RowAlias.letters, ∀ d ∈ letter.toList, Numerical d := by
      simp [RowAlias.letters, Numerical]
    exact letters _ (List.mem_of_getElem? found) c member
  · rw [spelled, List.mem_cons, List.mem_append] at member
    rcases member with rfl | isDigit | isLine
    · simp [Numerical]
    · exact .inl (Text.isDigit_of_mem_toDigits isDigit)
    · rw [List.mem_singleton.mp isLine]
      simp [Numerical]

omit solid in
theorem over_rowAlias (numerical : ∀ c, Numerical c → kind c) (name : RowAlias) :
    Over kind name.text :=
  (over_stem numerical name.depth).append (Text.over_toString numerical name.number)

omit solid in
theorem over_parameter (numerical : ∀ c, Numerical c → kind c) (index : Nat) :
    Over kind ((Term.parameter index).text config) := by
  have ofMark {mark : String} (inMark : Over Numerical mark) : Over kind mark :=
    fun c member => numerical c (inMark c member)
  simp only [Term.text, Config.parameter, Dialect.placeholder]
  split
  · exact (ofMark (by simp [Over, Numerical])).append (Text.over_toString numerical index)
  · exact (ofMark (by simp [Over, Numerical])).append (Text.over_toString numerical (index + 1))

theorem over_rowIdentifier (name : RowAlias) : Over kind (config.identifier name.text) :=
  over_identifier solid config
    (over_rowAlias (fun c numerical => solid c (Text.solid_of_numerical c numerical)) name)

theorem over_column {ref : ColumnRef} (ofColumn : Over kind ref.column) :
    Over kind (ref.text config) := by
  have point : Over kind "." := fun c member => solid c (.inr (by simp_all))
  exact ((over_rowIdentifier solid config ref.table).append point).append
    (over_identifier solid config ofColumn)

/-- A table and the name it goes by stand apart. -/
theorem over_table {table : String} (blank : kind ' ') (ofTable : Over kind table)
    (name : RowAlias) : Over kind (config.table table name.text) :=
  ((over_identifier solid config ofTable).append (by simpa [Over] using blank)).append
    (over_rowIdentifier solid config name)

end Sql

end ObjectQuery
