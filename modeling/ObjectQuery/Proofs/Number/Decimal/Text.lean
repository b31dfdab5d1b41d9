import ObjectQuery.Number.Decimal.Text
import ObjectQuery.Proofs.Text.Digits

/-!
Contract: the text of a decimal is read back as that decimal.

A reading that goes through a row of digits carries the number of the row as its coefficient. Up to
28 places and `2 ^ 96` nothing is rounded, and these are the bounds of the type itself.

Owns:
- the run of a reading over a row of digits, before and behind the point;
- `ofText?_text`, with the sign of a zero as the only loss;
- the sign and the size of what an unsigned row of digits stands for.

Does not own: number tokens.
-/

namespace ObjectQuery.Decimal

variable {negative seen : Bool} {digits rest : List Char}

theorem digit?_of_isDigit {c : Char} (isDigit : c.isDigit = true) :
    digit? c = some (Text.digitValue c) := by
  simp [digit?, isDigit]

/-- One more digit appended to a coefficient. -/
theorem ofDigitChars_cons_eq (c : Char) (digits : List Char) (coefficient : Nat) :
    Nat.ofDigitChars 10 (c :: digits) coefficient =
      Nat.ofDigitChars 10 digits (coefficient * 10 + Text.digitValue c) := by
  rw [Nat.ofDigitChars_cons, Nat.mul_comm]
  rfl

/-! ### Digits in front of the point -/

/-- A digit in front of the point, while the number stays small enough. -/
theorem Reading.run_digit
    {c : Char}
    {coefficient : Nat}
    (isDigit : c.isDigit = true) :
    Reading.run negative ⟨coefficient, 0, false, seen⟩ (c :: rest) =
      if coefficient * 10 + Text.digitValue c < 2 ^ 96 then
        Reading.run negative ⟨coefficient * 10 + Text.digitValue c, 0, false, true⟩ rest
      else none := by
  rw [Reading.run, digit?_of_isDigit isDigit]
  rfl

/-- Digits in front of the point are read as a whole, or they stand for too great a number. -/
theorem Reading.run_digits
    {coefficient : Nat}
    (allDigits : ∀ c ∈ digits, c.isDigit = true)
    (small : coefficient < 2 ^ 96) :
    Reading.run negative ⟨coefficient, 0, false, seen⟩ (digits ++ rest) =
      if Nat.ofDigitChars 10 digits coefficient < 2 ^ 96 then
        Reading.run negative
          ⟨Nat.ofDigitChars 10 digits coefficient, 0, false, seen || !digits.isEmpty⟩ rest
      else none := by
  induction digits generalizing coefficient seen with
  | nil =>
    rw [Nat.ofDigitChars_nil, if_pos small]
    simp
  | cons c digits inductionHypothesis =>
    have isDigit := allDigits c (List.mem_cons_self ..)
    have restDigits : ∀ d ∈ digits, d.isDigit = true :=
      fun d member => allDigits d (List.mem_cons_of_mem c member)
    rw [List.cons_append, Reading.run_digit isDigit, ofDigitChars_cons_eq]
    by_cases next : coefficient * 10 + Text.digitValue c < 2 ^ 96
    · rw [if_pos next, inductionHypothesis restDigits next]
      simp
    · have greater := Text.le_ofDigitChars digits (coefficient * 10 + Text.digitValue c)
      rw [if_neg next, if_neg (by omega)]

/-- A row of digits stands for its number when that is small enough. -/
theorem Reading.run_whole
    (allDigits : ∀ c ∈ digits, c.isDigit = true)
    (nonempty : digits ≠ []) :
    Reading.run negative ⟨0, 0, false, false⟩ digits =
      make? (negative && Text.digitsValue digits != 0) (Text.digitsValue digits) 0 := by
  rw [← List.append_nil digits, Reading.run_digits allDigits (by decide), List.append_nil,
    Text.digitsValue_eq_ofDigitChars]
  split
  · simp [Reading.run, Reading.finish, nonempty]
  · rename_i great
    rw [make?, dif_neg (not_and_of_not_left _ great)]

/-! ### Digits behind the point -/

/-- Digits behind the point are read as a whole when they fit. -/
theorem Reading.run_places
    {coefficient scale : Nat}
    (allDigits : ∀ c ∈ digits, c.isDigit = true)
    (fewPlaces : scale + digits.length ≤ 28)
    (small : Nat.ofDigitChars 10 digits coefficient < 2 ^ 96) :
    Reading.run negative ⟨coefficient, scale, true, true⟩ digits =
      make? (negative && Nat.ofDigitChars 10 digits coefficient != 0)
        (Nat.ofDigitChars 10 digits coefficient) (scale + digits.length) := by
  induction digits generalizing coefficient scale with
  | nil => simp [Reading.run, Reading.finish]
  | cons c digits inductionHypothesis =>
    have isDigit := allDigits c (List.mem_cons_self ..)
    rw [ofDigitChars_cons_eq] at small ⊢
    rw [List.length_cons] at fewPlaces ⊢
    have next : coefficient * 10 + Text.digitValue c < 2 ^ 96 :=
      Nat.lt_of_le_of_lt (Text.le_ofDigitChars _ _) small
    have restDigits : ∀ d ∈ digits, d.isDigit = true :=
      fun d member => allDigits d (List.mem_cons_of_mem c member)
    rw [Reading.run, if_neg (by simp; omega), digit?_of_isDigit isDigit]
    simp only [next, if_true]
    rw [inductionHypothesis restDigits (by omega) small]
    rw [show scale + 1 + digits.length = scale + (digits.length + 1) by omega]

/-! ### The text of a decimal -/

/-- The digits of a decimal with as many zeros in front as its places need. -/
def paddedDigits (x : Decimal) : List Char :=
  let digits := Nat.toDigits 10 x.coefficient
  List.replicate (x.scale + 1 - digits.length) '0' ++ digits

/-- The digits in front of the point. -/
def wholeDigits (x : Decimal) : List Char :=
  x.paddedDigits.take (x.paddedDigits.length - x.scale)

/-- The digits behind the point. -/
def placeDigits (x : Decimal) : List Char :=
  x.paddedDigits.drop (x.paddedDigits.length - x.scale)

theorem toList_text (x : Decimal) :
    x.text.toList =
      (if x.negative then ['-'] else []) ++ x.wholeDigits
        ++ if x.scale = 0 then [] else '.' :: x.placeDigits := by
  simp [text, wholeDigits, placeDigits, paddedDigits]

theorem wholeDigits_append_placeDigits (x : Decimal) :
    x.wholeDigits ++ x.placeDigits = x.paddedDigits :=
  List.take_append_drop _ _

theorem scale_lt_length_paddedDigits (x : Decimal) : x.scale < x.paddedDigits.length := by
  simp only [paddedDigits, List.length_append, List.length_replicate]
  omega

theorem isDigit_of_mem_paddedDigits (x : Decimal) : ∀ c ∈ x.paddedDigits, c.isDigit = true := by
  intro c member
  rcases List.mem_append.mp member with zero | digit
  · rw [List.eq_of_mem_replicate zero]
    decide
  · exact Text.isDigit_of_mem_toDigits digit

theorem isDigit_of_mem_wholeDigits (x : Decimal) : ∀ c ∈ x.wholeDigits, c.isDigit = true :=
  fun c member => x.isDigit_of_mem_paddedDigits c (List.mem_of_mem_take member)

theorem isDigit_of_mem_placeDigits (x : Decimal) : ∀ c ∈ x.placeDigits, c.isDigit = true :=
  fun c member => x.isDigit_of_mem_paddedDigits c (List.mem_of_mem_drop member)

theorem wholeDigits_ne_nil (x : Decimal) : x.wholeDigits ≠ [] := by
  have longer := x.scale_lt_length_paddedDigits
  apply List.ne_nil_of_length_pos
  rw [wholeDigits, List.length_take]
  omega

theorem length_placeDigits (x : Decimal) : x.placeDigits.length = x.scale := by
  have longer := x.scale_lt_length_paddedDigits
  rw [placeDigits, List.length_drop]
  omega

theorem ofDigitChars_paddedDigits (x : Decimal) :
    Nat.ofDigitChars 10 x.paddedDigits 0 = x.coefficient := by
  simp [paddedDigits, Nat.ofDigitChars_append]

theorem ofDigitChars_placeDigits (x : Decimal) :
    Nat.ofDigitChars 10 x.placeDigits (Nat.ofDigitChars 10 x.wholeDigits 0) = x.coefficient := by
  rw [← Nat.ofDigitChars_append, wholeDigits_append_placeDigits, ofDigitChars_paddedDigits]

theorem ofDigitChars_wholeDigits_lt (x : Decimal) :
    Nat.ofDigitChars 10 x.wholeDigits 0 < 2 ^ 96 :=
  calc
    Nat.ofDigitChars 10 x.wholeDigits 0
      ≤ Nat.ofDigitChars 10 x.paddedDigits 0 := Text.ofDigitChars_take_le _ _
    _ = x.coefficient := x.ofDigitChars_paddedDigits
    _ < 2 ^ 96 := x.coefficient_lt

/-- The digits of a decimal are read back with its scale. -/
theorem Reading.run_unsignedText (negative : Bool) (x : Decimal) :
    Reading.run negative ⟨0, 0, false, false⟩
        (x.wholeDigits ++ if x.scale = 0 then [] else '.' :: x.placeDigits) =
      make? (negative && x.coefficient != 0) x.coefficient x.scale := by
  rw [Reading.run_digits x.isDigit_of_mem_wholeDigits (by decide),
    if_pos x.ofDigitChars_wholeDigits_lt]
  have places := x.ofDigitChars_placeDigits
  by_cases noPlaces : x.scale = 0
  · have none : x.placeDigits = [] := List.eq_nil_of_length_eq_zero (by
      rw [length_placeDigits, noPlaces])
    rw [none, Nat.ofDigitChars_nil] at places
    rw [places, if_pos noPlaces, noPlaces]
    simp [Reading.run, Reading.finish, x.wholeDigits_ne_nil]
  · have fewPlaces : 0 + x.placeDigits.length ≤ 28 := by
      rw [length_placeDigits, Nat.zero_add]
      exact x.scale_le
    have small : Nat.ofDigitChars 10 x.placeDigits (Nat.ofDigitChars 10 x.wholeDigits 0) < 2 ^ 96 := by
      rw [places]
      exact x.coefficient_lt
    have behind : Reading.run negative ⟨_, 0, true, true⟩ x.placeDigits = _ :=
      Reading.run_places x.isDigit_of_mem_placeDigits fewPlaces small
    rw [places, length_placeDigits, Nat.zero_add] at behind
    have someDigits : x.wholeDigits.isEmpty = false := by simp [x.wholeDigits_ne_nil]
    rw [if_neg noPlaces, Reading.run, ← behind]
    simp [digit?, someDigits]

theorem make?_self (x : Decimal) :
    make? (x.negative && x.coefficient != 0) x.coefficient x.scale = some x.dropZeroSign := by
  have bounds := And.intro x.coefficient_lt x.scale_le
  rw [make?, dif_pos bounds]
  by_cases zero : x.coefficient = 0
  · simp [dropZeroSign, isZero, zero]
  · have counted : (x.coefficient != 0) = true := by simp [zero]
    simp [dropZeroSign, isZero, zero, counted]

/-- A text that begins with a digit is read without a sign. -/
theorem ofText?_of_head_isDigit
    {source : String}
    (head : ∀ c ∈ source.toList.head?, c.isDigit = true) :
    ofText? source = Reading.run false ⟨0, 0, false, false⟩ source.toList := by
  unfold ofText?
  split
  · rename_i rest minus
    exact absurd (head '-' (by simp [minus])) (by decide)
  · rename_i rest plus
    exact absurd (head '+' (by simp [plus])) (by decide)
  · rfl

/-- The text of a decimal is read as that decimal; a zero loses its sign. -/
theorem ofText?_text (x : Decimal) : ofText? x.text = some x.dropZeroSign := by
  have toList := x.toList_text
  rw [← make?_self]
  cases signed : x.negative with
  | true =>
    rw [signed] at toList
    rw [ofText?, toList]
    exact Reading.run_unsignedText true x
  | false =>
    have unsigned : x.text.toList =
        x.wholeDigits ++ if x.scale = 0 then [] else '.' :: x.placeDigits := by
      simpa [signed] using toList
    have head : ∀ c ∈ x.text.toList.head?, c.isDigit = true := by
      intro c first
      obtain ⟨d, others, split⟩ := List.exists_cons_of_ne_nil x.wholeDigits_ne_nil
      obtain rfl : d = c := by simpa [unsigned, split] using first
      exact x.isDigit_of_mem_wholeDigits d (by simp [split])
    rw [ofText?_of_head_isDigit head, unsigned]
    exact Reading.run_unsignedText false x

/-! ### What an unsigned text stands for -/

section

variable {x : Decimal}

theorem make?_eq_some_iff {coefficient scale : Nat} :
    make? negative coefficient scale = some x ↔
      x.negative = negative ∧ x.coefficient = coefficient ∧ x.scale = scale := by
  unfold make?
  constructor
  · intro made
    split at made
    · obtain rfl := Option.some.inj made
      exact ⟨rfl, rfl, rfl⟩
    · simp at made
  · rintro ⟨rfl, rfl, rfl⟩
    rw [dif_pos ⟨x.coefficient_lt, x.scale_le⟩]

/-- A cut reading keeps its coefficient or makes it one greater, and gives up a place when that is
too great. -/
theorem Reading.exists_of_cut
    {reading : Reading}
    (cut : reading.cut negative rest = some x) :
    ∃ rounded, reading.coefficient ≤ rounded ∧
      (make? (negative && rounded != 0) rounded reading.scale = some x ∨
        2 ^ 96 ≤ rounded ∧ make? negative ((rounded + 4) / 10) (reading.scale - 1) = some x) := by
  unfold Reading.cut at cut
  split at cut
  · simp at cut
  · dsimp only at cut
    generalize equal : (if (rest.find? Char.isDigit).any fun c => 5 ≤ Text.digitValue c then
      reading.coefficient + 1 else reading.coefficient) = rounded at cut
    refine ⟨rounded, ?_, ?_⟩
    · rw [← equal]
      split <;> omega
    · by_cases small : rounded < 2 ^ 96
      · rw [if_pos small] at cut
        exact .inl cut
      · rw [if_neg small] at cut
        split at cut
        · simp at cut
        · exact .inr ⟨by omega, cut⟩

theorem Reading.negative_of_cut
    {reading : Reading}
    (cut : reading.cut false rest = some x) :
    x.negative = false := by
  obtain ⟨rounded, -, made | ⟨-, made⟩⟩ := Reading.exists_of_cut cut
  · exact (make?_eq_some_iff.mp made).1
  · exact (make?_eq_some_iff.mp made).1

theorem Reading.negative_of_run
    {reading : Reading}
    (read : Reading.run false reading rest = some x) :
    x.negative = false := by
  fun_induction Reading.run false reading rest with
  | case1 reading =>
    unfold Reading.finish at read
    split at read
    · exact (make?_eq_some_iff.mp read).1
    · simp at read
  | case2 => exact Reading.negative_of_cut read
  | case3 reading c others room d isDigit next small inductionHypothesis =>
    exact inductionHypothesis read
  | case4 => exact Reading.negative_of_cut read
  | case5 => simp at read
  | case6 reading c others room noDigit point inductionHypothesis =>
    exact inductionHypothesis read
  | case7 reading c others room noDigit noPoint separator inductionHypothesis =>
    exact inductionHypothesis read
  | case8 => simp at read

/-- A number that has places, or is beyond the integers of 64 bits. -/
def ExceedsIntegers (x : Decimal) : Prop :=
  x.scale ≠ 0 ∨ 2 ^ 63 ≤ x.coefficient

/-- Cutting gives up a place only for a coefficient that has become too great. -/
theorem Reading.exceedsIntegers_of_cut
    {reading : Reading}
    (cut : reading.cut negative rest = some x)
    (wide : 28 ≤ reading.scale ∨ 2 ^ 63 ≤ reading.coefficient) :
    x.ExceedsIntegers := by
  obtain ⟨rounded, noSmaller, made | ⟨great, made⟩⟩ := Reading.exists_of_cut cut
  · obtain ⟨-, coefficient, scale⟩ := make?_eq_some_iff.mp made
    unfold ExceedsIntegers
    omega
  · obtain ⟨-, coefficient, scale⟩ := make?_eq_some_iff.mp made
    unfold ExceedsIntegers
    omega

theorem digitValue_le {c : Char} (isDigit : c.isDigit = true) : Text.digitValue c ≤ 9 := by
  simp only [Char.isDigit, Bool.and_eq_true, decide_eq_true_eq] at isDigit
  have upper : c.toNat ≤ '9'.toNat := isDigit.2
  have nine : '9'.toNat = 57 := by decide
  have zero : '0'.toNat = 48 := by decide
  unfold Text.digitValue
  omega

/-- Behind the point a place is read, or there are so many digits that none is left to it. -/
theorem Reading.exceedsIntegers_of_run_places
    {coefficient scale : Nat}
    (allDigits : ∀ c ∈ digits, c.isDigit = true)
    (somePlace : scale ≠ 0 ∨ digits ≠ [])
    (read : Reading.run negative ⟨coefficient, scale, true, seen⟩ digits = some x) :
    x.ExceedsIntegers := by
  induction digits generalizing coefficient scale seen with
  | nil =>
    have hasScale : scale ≠ 0 := by simpa using somePlace
    rw [Reading.run, Reading.finish] at read
    split at read
    · obtain ⟨-, -, kept⟩ := make?_eq_some_iff.mp read
      exact .inl (by rw [kept]; exact hasScale)
    · simp at read
  | cons c digits inductionHypothesis =>
    have isDigit := allDigits c (List.mem_cons_self ..)
    rw [Reading.run, digit?_of_isDigit isDigit] at read
    split at read
    · rename_i full
      exact Reading.exceedsIntegers_of_cut read (.inl full.2)
    · dsimp only at read
      split at read
      · exact inductionHypothesis (fun d member => allDigits d (List.mem_cons_of_mem c member))
          (.inl (by simp)) read
      · rename_i great
        have small := digitValue_le isDigit
        exact Reading.exceedsIntegers_of_cut read (.inr (by simp only; omega))

/-- Digits without a point are read as their number. -/
theorem parts_of_ofText?_digits
    {source : String}
    (allDigits : ∀ c ∈ source.toList, c.isDigit = true)
    (nonempty : source.toList ≠ [])
    (read : ofText? source = some x) :
    x.negative = false ∧ x.coefficient = Text.digitsValue source.toList ∧ x.scale = 0 := by
  rw [ofText?_of_head_isDigit (fun c head => allDigits c (List.mem_of_mem_head? head)),
    Reading.run_whole allDigits nonempty] at read
  exact make?_eq_some_iff.mp read

/-- Digits around a point leave places, or are beyond the integers of 64 bits. -/
theorem exceedsIntegers_of_ofText?
    {source : String}
    {places : List Char}
    (split : source.toList = digits ++ '.' :: places)
    (someDigit : digits ≠ [])
    (wholeDigits : ∀ c ∈ digits, c.isDigit = true)
    (placeDigits : ∀ c ∈ places, c.isDigit = true)
    (nonempty : places ≠ [])
    (read : ofText? source = some x) :
    x.negative = false ∧ x.ExceedsIntegers := by
  have head : ∀ c ∈ source.toList.head?, c.isDigit = true := by
    intro c first
    obtain ⟨d, others, whole⟩ := List.exists_cons_of_ne_nil someDigit
    obtain rfl : d = c := by simpa [split, whole] using first
    exact wholeDigits d (by simp [whole])
  rw [ofText?_of_head_isDigit head, split] at read
  refine ⟨Reading.negative_of_run read, ?_⟩
  rw [Reading.run_digits wholeDigits (by decide)] at read
  split at read
  · rw [Reading.run] at read
    exact Reading.exceedsIntegers_of_run_places placeDigits (.inr nonempty)
      (by simpa [digit?] using read)
  · simp at read

end

end ObjectQuery.Decimal
