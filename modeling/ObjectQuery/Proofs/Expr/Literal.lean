import ObjectQuery.Expr.Parser
import ObjectQuery.Expr.Printer
import ObjectQuery.Proofs.Number.Decimal.Text
import ObjectQuery.Proofs.Token.Scan

/-!
Contract: numbers and strings of query text, read from tokens and written as literals.

Owns:
- `Value.Readable`, the values that a number, a string or `null` stands for;
- both directions between these values and the texts of number tokens;
- the texts of parameter indices and of strings.

Does not own: where a literal stands in an expression.
-/

namespace ObjectQuery

/-- The values that a literal of query text stands for. Numbers have no sign, and each takes the
narrowest kind that holds it. -/
def Value.Readable : Value → Prop
  | .null => True
  | .integer n => 0 ≤ n.value ∧ (n.width = .w32 ∨ n.width = .w64 ∧ ¬ IntWidth.w32.Holds n.value)
  | .decimal d => d.negative = false ∧ d.ExceedsIntegers
  | .string _ => True
  | _ => False

/-! ### Rows of digits and a point -/

theorem isDigit_of_isNumberPart
    {c : Char}
    (part : isNumberPart c = true)
    (noPoint : c ≠ '.') :
    c.isDigit = true := by
  simpa [isNumberPart, noPoint] using part

theorem isNumberPart_of_isDigit {c : Char} (isDigit : c.isDigit = true) : isNumberPart c = true := by
  simp [isNumberPart, isDigit]

theorem IsNumber.isNumberPart
    {text : List Char}
    (isNumber : IsNumber text) :
    ∀ c ∈ text, isNumberPart c = true := by
  obtain ⟨first, parts, rfl, start, inside⟩ := isNumber
  intro c member
  rcases List.mem_cons.mp member with rfl | later
  · exact isNumberPart_of_isDigit start
  · exact inside c later

theorem IsNumber.ne_nil {text : List Char} (isNumber : IsNumber text) : text ≠ [] := by
  obtain ⟨first, parts, rfl, -, -⟩ := isNumber
  simp

/-- A row of digits is a number. -/
theorem isNumber_of_digits
    {digits : List Char}
    (allDigits : ∀ c ∈ digits, c.isDigit = true)
    (nonempty : digits ≠ []) :
    IsNumber digits := by
  obtain ⟨c, parts, rfl⟩ := List.exists_cons_of_ne_nil nonempty
  refine ⟨c, parts, rfl, allDigits c (List.mem_cons_self ..), ?_⟩
  intro d member
  exact isNumberPart_of_isDigit (allDigits d (List.mem_cons_of_mem c member))

/-- Digits, a point and further digits are a number. -/
theorem isNumber_of_places
    {digits places : List Char}
    (wholeDigits : ∀ c ∈ digits, c.isDigit = true)
    (placeDigits : ∀ c ∈ places, c.isDigit = true)
    (nonempty : digits ≠ []) :
    IsNumber (digits ++ '.' :: places) := by
  obtain ⟨c, parts, rfl⟩ := List.exists_cons_of_ne_nil nonempty
  refine ⟨c, parts ++ '.' :: places, rfl, wholeDigits c (List.mem_cons_self ..), ?_⟩
  intro d member
  rcases List.mem_append.mp member with front | behind
  · exact isNumberPart_of_isDigit (wholeDigits d (List.mem_cons_of_mem c front))
  · rcases List.mem_cons.mp behind with rfl | place
    · decide
    · exact isNumberPart_of_isDigit (placeDigits d place)

theorem not_mem_point {digits : List Char} (allDigits : ∀ c ∈ digits, c.isDigit = true) :
    '.' ∉ digits := by
  intro member
  exact absurd (allDigits '.' member) (by decide)

/-- A natural number that is no integer of 64 bits. -/
theorem le_of_not_holds {n : Nat} (tooGreat : ¬ IntWidth.w64.Holds n) : 2 ^ 63 ≤ n := by
  have top : IntWidth.w64.bound = 9223372036854775808 := by decide
  unfold IntWidth.Holds at tooGreat
  rw [top] at tooGreat
  omega

/-! ### Number tokens stand for readable values -/

namespace Grammar

/-- A number with one point, which is not its last character, has digits on both sides. -/
theorem digits_around_point
    {text : List Char}
    (isNumber : IsNumber text)
    (one : text.count '.' = 1)
    (notLast : text.getLast? ≠ some '.') :
    ∃ digits places, text = digits ++ '.' :: places ∧ digits ≠ [] ∧ places ≠ [] ∧
      (∀ c ∈ digits, c.isDigit = true) ∧ ∀ c ∈ places, c.isDigit = true := by
  have parts := isNumber.isNumberPart
  obtain ⟨digits, places, rfl⟩ :=
    List.append_of_mem (List.count_pos_iff.mp (by omega : 0 < text.count '.'))
  rw [List.count_append, List.count_cons_self] at one
  have noneFront : '.' ∉ digits := List.count_eq_zero.mp (by omega)
  have noneBehind : '.' ∉ places := List.count_eq_zero.mp (by omega)
  refine ⟨digits, places, rfl, ?_, ?_, ?_, ?_⟩
  · rintro rfl
    obtain ⟨c, others, split, start, -⟩ := isNumber
    obtain ⟨rfl, -⟩ := List.cons.inj split
    exact absurd start (by decide)
  · rintro rfl
    exact notLast (by simp)
  · intro c member
    refine isDigit_of_isNumberPart (parts c (List.mem_append_left _ member)) ?_
    rintro rfl
    exact noneFront member
  · intro c member
    refine isDigit_of_isNumberPart (parts c (by simp [member])) ?_
    rintro rfl
    exact noneBehind member

theorem numberValue?_of_point
    {text : String}
    (point : '.' ∈ text.toList) :
    numberValue? text =
      if text.toList.count '.' = 1 ∧ text.toList.getLast? ≠ some '.' then
        (Decimal.ofText? text).map .decimal
      else none := by
  unfold numberValue?
  simp only [List.contains_eq_mem, point, decide_true, if_true]

/-- Without a point a number is an integer of the narrowest of two widths, or else a decimal. -/
theorem numberValue?_eq_some_iff_of_digits
    {text : String}
    {value : Value}
    (noPoint : '.' ∉ text.toList) :
    numberValue? text = some value ↔
      (∃ n, value = .integer n ∧ n.width = .w32 ∧ n.value = Text.digitsValue text.toList) ∨
      (¬ IntWidth.w32.Holds (Text.digitsValue text.toList) ∧
        ∃ n, value = .integer n ∧ n.width = .w64 ∧ n.value = Text.digitsValue text.toList) ∨
      (¬ IntWidth.w32.Holds (Text.digitsValue text.toList) ∧
        ¬ IntWidth.w64.Holds (Text.digitsValue text.toList) ∧
        (Decimal.ofText? text).map .decimal = some value) := by
  unfold numberValue?
  simp only [List.contains_eq_mem, noPoint, decide_false, Bool.false_eq_true, if_false]
  -- The reading as a decimal is kept closed: it is not to be computed here.
  generalize (Decimal.ofText? text).map Value.decimal = asDecimal
  generalize (Text.digitsValue text.toList : Int) = number
  simp only [← Integer.make?_eq_none_iff, ← Integer.make?_eq_some_iff]
  cases Integer.make? .w32 number with
  | some n => simp [eq_comm]
  | none =>
    cases Integer.make? .w64 number with
    | some n => simp [eq_comm]
    | none => simp

theorem readable_of_numberValue?
    {text : String}
    {value : Value}
    (isNumber : IsNumber text.toList)
    (read : numberValue? text = some value) :
    value.Readable := by
  by_cases point : '.' ∈ text.toList
  · rw [numberValue?_of_point point] at read
    split at read
    · rename_i pointed
      obtain ⟨d, decimal, rfl⟩ := Option.map_eq_some_iff.mp read
      obtain ⟨digits, places, split, someDigit, somePlace, wholeDigits, placeDigits⟩ :=
        digits_around_point isNumber pointed.1 pointed.2
      exact Decimal.exceedsIntegers_of_ofText? split someDigit wholeDigits placeDigits somePlace
        decimal
    · simp at read
  · have allDigits : ∀ c ∈ text.toList, c.isDigit = true := by
      intro c member
      refine isDigit_of_isNumberPart (isNumber.isNumberPart c member) ?_
      rintro rfl
      exact point member
    rcases (numberValue?_eq_some_iff_of_digits point).mp read with
      ⟨n, rfl, width, equal⟩ | ⟨notNarrow, n, rfl, width, equal⟩ | ⟨-, notWide, mapped⟩
    · exact ⟨by rw [equal]; exact Int.natCast_nonneg _, .inl width⟩
    · rw [← equal] at notNarrow
      exact ⟨by rw [equal]; exact Int.natCast_nonneg _, .inr ⟨width, notNarrow⟩⟩
    · obtain ⟨d, decimal, rfl⟩ := Option.map_eq_some_iff.mp mapped
      obtain ⟨unsigned, coefficient, -⟩ :=
        Decimal.parts_of_ofText?_digits allDigits isNumber.ne_nil decimal
      refine ⟨unsigned, .inr ?_⟩
      rw [coefficient]
      exact le_of_not_holds notWide

/-! ### Readable numbers are written as number tokens -/

theorem toList_literalText_integer
    {n : Integer}
    (unsigned : 0 ≤ n.value) :
    (Value.integer n).literalText.toList = Nat.toDigits 10 n.value.toNat := by
  show (toString n.value).toList = _
  rw [Int.toString_eq_repr, Int.repr_eq_if, if_pos unsigned, Nat.toList_repr]

theorem toList_text_of_unsigned
    {d : Decimal}
    (unsigned : d.negative = false) :
    d.text.toList = d.wholeDigits ++ if d.scale = 0 then [] else '.' :: d.placeDigits := by
  rw [Decimal.toList_text, unsigned]
  rfl

theorem isNumber_decimalText
    {d : Decimal}
    (unsigned : d.negative = false) :
    IsNumber d.text.toList := by
  rw [toList_text_of_unsigned unsigned]
  split
  · rw [List.append_nil]
    exact isNumber_of_digits d.isDigit_of_mem_wholeDigits d.wholeDigits_ne_nil
  · exact isNumber_of_places d.isDigit_of_mem_wholeDigits d.isDigit_of_mem_placeDigits
      d.wholeDigits_ne_nil

theorem numberValue?_integerText
    {n : Integer}
    (readable : (Value.integer n).Readable) :
    numberValue? (Value.integer n).literalText = some (.integer n) := by
  obtain ⟨unsigned, width⟩ := readable
  have digits := toList_literalText_integer unsigned
  have number : (n.value.toNat : Int) = n.value := Int.toNat_of_nonneg unsigned
  rw [numberValue?_eq_some_iff_of_digits, digits, Text.digitsValue_toDigits, number]
  · rcases width with narrow | ⟨wide, notNarrow⟩
    · exact .inl ⟨n, rfl, narrow, rfl⟩
    · exact .inr (.inl ⟨notNarrow, n, rfl, wide, rfl⟩)
  · rw [digits]
    exact not_mem_point fun c member => Text.isDigit_of_mem_toDigits member

theorem not_holds_of_le {n : Nat} (great : 2 ^ 63 ≤ n) (width : IntWidth) : ¬ width.Holds n := by
  have top : IntWidth.w64.bound = 9223372036854775808 := by decide
  have narrower : width.bound ≤ IntWidth.w64.bound :=
    IntWidth.bound_le_of_level_le (by cases width <;> decide)
  unfold IntWidth.Holds
  omega

theorem numberValue?_decimalText
    {d : Decimal}
    (readable : (Value.decimal d).Readable) :
    numberValue? d.text = some (.decimal d) := by
  obtain ⟨unsigned, exceeds⟩ := readable
  have toList := toList_text_of_unsigned unsigned
  have reading : (Decimal.ofText? d.text).map Value.decimal = some (.decimal d) := by
    have same : d.dropZeroSign = d := by
      unfold Decimal.dropZeroSign
      split
      · rw [← unsigned]
      · rfl
    rw [Decimal.ofText?_text, same, Option.map_some]
  have wholeHasNoPoint := not_mem_point d.isDigit_of_mem_wholeDigits
  have placesHaveNoPoint := not_mem_point d.isDigit_of_mem_placeDigits
  by_cases noPlaces : d.scale = 0
  · rw [if_pos noPlaces, List.append_nil] at toList
    have great : 2 ^ 63 ≤ d.coefficient := exceeds.resolve_left (not_not_intro noPlaces)
    have value : Text.digitsValue d.wholeDigits = d.coefficient := by
      have none : d.placeDigits = [] :=
        List.eq_nil_of_length_eq_zero (d.length_placeDigits.trans noPlaces)
      have whole := d.ofDigitChars_placeDigits
      rwa [none, Nat.ofDigitChars_nil] at whole
    rw [numberValue?_eq_some_iff_of_digits, toList, value]
    · exact .inr (.inr ⟨not_holds_of_le great _, not_holds_of_le great _, reading⟩)
    · rwa [toList]
  · rw [if_neg noPlaces] at toList
    rw [numberValue?_of_point (by simp [toList]), reading, if_pos]
    refine ⟨?_, ?_⟩
    · rw [toList, List.count_append, List.count_cons_self, List.count_eq_zero.mpr wholeHasNoPoint,
        List.count_eq_zero.mpr placesHaveNoPoint]
    · intro last
      have somePlace : d.placeDigits ≠ [] := by
        intro none
        have length := d.length_placeDigits
        rw [none] at length
        exact noPlaces length.symm
      cases ends : d.placeDigits.getLast? with
      | none => exact somePlace (List.getLast?_eq_none_iff.mp ends)
      | some final =>
        obtain rfl : final = '.' := by simpa [toList, List.getLast?_cons, ends] using last
        exact placesHaveNoPoint (List.mem_of_getLast? ends)

/-! ### Parameter indices -/

theorem parameterIndex?_toString
    {index : Nat}
    (small : index < 2 ^ 64) :
    parameterIndex? (toString index) = some index := by
  have digits : (toString index).toList = Nat.toDigits 10 index := by
    rw [Nat.toString_eq_repr, Nat.toList_repr]
  have allDigits : (Nat.toDigits 10 index).all Char.isDigit = true :=
    List.all_eq_true.mpr fun c member => Text.isDigit_of_mem_toDigits member
  unfold parameterIndex?
  simp only [digits, allDigits, Text.digitsValue_toDigits, small, decide_true, Bool.and_self,
    if_true]

theorem isNumber_toString (index : Nat) : IsNumber (toString index).toList := by
  rw [Nat.toString_eq_repr, Nat.toList_repr]
  exact isNumber_of_digits (fun c member => Text.isDigit_of_mem_toDigits member)
    Nat.toDigits_ne_nil

theorem lt_of_parameterIndex?
    {text : String}
    {index : Nat}
    (read : parameterIndex? text = some index) :
    index < 2 ^ 64 := by
  unfold parameterIndex? at read
  dsimp only at read
  split at read
  · rename_i small
    rw [Bool.and_eq_true, decide_eq_true_eq] at small
    obtain rfl := Option.some.inj read
    exact small.2
  · simp at read

end Grammar

/-! ### Strings -/

/-- The token of a written string stands for that string. -/
theorem stringValue?_quote (s : String) (position : Nat) :
    Token.stringValue? ⟨.string, Text.quote s, position⟩ = some s := by
  have text : (Text.quote s).toList = '\'' :: (Text.Quoted.escape '\'' s.toList ++ ['\'']) := by
    simp [Text.quote, Text.Quoted.quoteWith]
  have long : 2 ≤ (Text.quote s).utf8ByteSize := by
    have split : Text.quote s =
        "'" ++ String.ofList (Text.Quoted.escape '\'' s.toList) ++ "'" := by
      apply String.toList_injective
      simp [text]
    rw [split, String.utf8ByteSize_append, String.utf8ByteSize_append]
    have mark : "'".utf8ByteSize = 1 := by decide
    omega
  unfold Token.stringValue?
  rw [if_pos ⟨rfl, long⟩]
  simp only [text, List.tail_cons, List.dropLast_concat, Text.Quoted.unescape_escape,
    String.ofList_toList]

end ObjectQuery
