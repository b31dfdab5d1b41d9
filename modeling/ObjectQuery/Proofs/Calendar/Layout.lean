import ObjectQuery.Calendar.Layout
import ObjectQuery.Proofs.Text.Digits
import ObjectQuery.Proofs.Text.Trimming

/-!
Contract: the written parts of dates and times are read by the items of a layout.

A padded number fills its width, so it is read whatever stands behind it. A year with a sign has no
width and ends only where the digits do. From this follow the laws of the two rows of items that
layouts are made of, a date and a clock: each reads what was written for it and leaves the rest.

Owns:
- the numbers, years, dates and clocks that `Layout` writes, as `Layout` reads them;
- the characters that a written date or clock is made of.

Does not own: which layout reads which text.
-/

namespace ObjectQuery

theorem isGraphic_of_isDigit {c : Char} (digit : c.isDigit = true) : isGraphic c = true := by
  simp only [Char.isDigit, Bool.and_eq_true, decide_eq_true_eq, ge_iff_le,
    UInt32.le_iff_toNat_le] at digit
  simp at digit
  simp only [isGraphic, Bool.and_eq_true, decide_eq_true_eq]
  grind

namespace Layout

variable {width value : Nat} {year : Int} {digits after : List Char}

/-! ### Padded numbers -/

theorem isDigit_of_mem_padded {c : Char} (member : c ∈ padded width value) : c.isDigit = true := by
  rcases List.mem_append.mp member with zero | digit
  · rw [List.eq_of_mem_replicate zero]
    rfl
  · exact Text.isDigit_of_mem_toDigits digit

theorem exists_padded_eq_cons (width value : Nat) :
    ∃ c rest, padded width value = c :: rest ∧ c.isDigit = true := by
  cases digits : padded width value with
  | nil =>
    have nonempty : padded width value ≠ [] :=
      List.append_ne_nil_of_right_ne_nil _ Nat.toDigits_ne_nil
    exact absurd digits nonempty
  | cons c rest =>
    have digit : c.isDigit = true := by
      apply isDigit_of_mem_padded
      rw [digits]
      exact List.mem_cons_self ..
    exact ⟨c, rest, rfl, digit⟩

theorem padded_ne_nil (width value : Nat) : padded width value ≠ [] := by
  obtain ⟨c, rest, digits, -⟩ := exists_padded_eq_cons width value
  rw [digits]
  exact List.cons_ne_nil c rest

theorem length_padded (positive : 0 < width) (small : value < 10 ^ width) :
    (padded width value).length = width := by
  have short := (Nat.length_toDigits_le_iff (by decide) positive).mpr small
  rw [padded, List.length_append, List.length_replicate]
  omega

@[simp]
theorem digitsValue_padded (width value : Nat) : Text.digitsValue (padded width value) = value := by
  rw [Text.digitsValue_eq_ofDigitChars, padded, Nat.ofDigitChars_append,
    Nat.ofDigitChars_replicate_zero, Nat.mul_zero, Nat.ofDigitChars_ten_toDigits]

/-! ### Reading numbers -/

/-- Digits are read up to the width, or up to where they end. -/
theorem readDigits?_append
    (width : Nat)
    (after : List Char)
    (allDigits : ∀ c ∈ digits, c.isDigit = true)
    (nonempty : digits ≠ [])
    (short : digits.length ≤ width)
    (ends : digits.length = width ∨ ∀ c ∈ after.head?, c.isDigit = false) :
    readDigits? width (digits ++ after) = some (Text.digitsValue digits, after) := by
  have leading : leadingDigits width (digits ++ after) = digits := by
    have cut : (digits ++ after).take width = digits ++ after.take (width - digits.length) := by
      rw [List.take_append, List.take_of_length_le short]
    have stops : (after.take (width - digits.length)).takeWhile Char.isDigit = [] := by
      rcases ends with full | otherBehind
      · rw [full, Nat.sub_self]
        rfl
      · cases after with
        | nil => simp
        | cons c after =>
          have other := otherBehind c rfl
          cases width - digits.length <;> simp [other]
    rw [leadingDigits, cut, List.takeWhile_append_of_pos allDigits, stops, List.append_nil]
  rw [readDigits?, leading, List.drop_left]
  simp [nonempty]

theorem readDigits?_padded
    (after : List Char)
    (positive : 0 < width)
    (small : value < 10 ^ width) :
    readDigits? width (padded width value ++ after) = some (value, after) := by
  have length := length_padded positive small
  rw [readDigits?_append width after (fun c => isDigit_of_mem_padded) (padded_ne_nil width value)
    (Nat.le_of_eq length) (.inl length), digitsValue_padded]

theorem trimStart_cons_of_isDigit {c : Char} (digit : c.isDigit = true) :
    Text.trimStart (c :: after) = c :: after := by
  apply Text.trimStart_eq_self
  intro d first
  obtain rfl := Option.some.inj first
  exact isBlank_of_isGraphic (isGraphic_of_isDigit digit)

theorem readPair?_padded (after : List Char) (small : value < 100) :
    readPair? (padded 2 value ++ after) = some (value, after) := by
  have number := readDigits?_padded after (by decide : 0 < 2) small
  obtain ⟨c, rest, digits, digit⟩ := exists_padded_eq_cons 2 value
  rw [digits, List.cons_append] at number ⊢
  rw [readPair?, trimStart_cons_of_isDigit digit, number]

/-! ### Years -/

theorem readYear?_of_isDigit {c : Char} (digit : c.isDigit = true) :
    readYear? (c :: after) =
      (readDigits? 4 (c :: after)).map fun (value, rest) => ((value : Int), rest) := by
  have notMinus : c ≠ '-' := by
    rintro rfl
    cases digit
  have notPlus : c ≠ '+' := by
    rintro rfl
    cases digit
  rw [readYear?, trimStart_cons_of_isDigit digit]
  split
  · next same => exact absurd (List.cons.inj same).1 notMinus
  · next same => exact absurd (List.cons.inj same).1 notPlus
  · rfl

/-- A year with a sign goes on to where its digits end. -/
theorem readYear?_signed
    {sign : Char}
    (isSign : sign = '-' ∨ sign = '+')
    (allDigits : ∀ c ∈ digits, c.isDigit = true)
    (nonempty : digits ≠ [])
    (ends : ∀ c ∈ after.head?, c.isDigit = false) :
    readYear? (sign :: digits ++ after) =
      some (if sign = '-' then -(Text.digitsValue digits : Int) else Text.digitsValue digits,
        after) := by
  have solid : Text.trimStart (sign :: digits ++ after) = sign :: (digits ++ after) := by
    apply Text.trimStart_eq_self
    intro c first
    obtain rfl := Option.some.inj first
    rcases isSign with rfl | rfl <;> decide
  have number := readDigits?_append (digits ++ after).length after allDigits nonempty
    (by simp) (.inr ends)
  rw [readYear?, solid]
  rcases isSign with rfl | rfl
  · show (readDigits? (digits ++ after).length (digits ++ after)).map _ = _
    rw [number]
    rfl
  · show (readDigits? (digits ++ after).length (digits ++ after)).map _ = _
    rw [number]
    rfl

theorem yearText_of_plain (plain : 0 ≤ year ∧ year ≤ 9999) :
    yearText year = padded 4 year.natAbs := by
  rw [yearText, if_neg (by omega), if_neg (by omega), List.nil_append]

theorem yearText_of_not_plain (signed : ¬(0 ≤ year ∧ year ≤ 9999)) :
    ∃ sign, (sign = '-' ∨ sign = '+') ∧ yearText year = sign :: padded 4 year.natAbs ∧
      year = if sign = '-' then -(year.natAbs : Int) else year.natAbs := by
  by_cases negative : year < 0
  · refine ⟨'-', .inl rfl, ?_, ?_⟩
    · rw [yearText, if_pos negative]
      rfl
    · rw [if_pos rfl]
      omega
  · refine ⟨'+', .inr rfl, ?_, ?_⟩
    · rw [yearText, if_neg negative, if_pos (by omega)]
      rfl
    · rw [if_neg (by decide)]
      omega

/-- A written year is read back in front of anything if it has four digits, and otherwise in front
of anything that is no further digit. -/
theorem readYear?_yearText
    (year : Int)
    (after : List Char)
    (ends : (0 ≤ year ∧ year ≤ 9999) ∨ ∀ c ∈ after.head?, c.isDigit = false) :
    readYear? (yearText year ++ after) = some (year, after) := by
  by_cases plain : 0 ≤ year ∧ year ≤ 9999
  · have number : readDigits? 4 (padded 4 year.natAbs ++ after) = some (year.natAbs, after) :=
      readDigits?_padded after (by decide) (by omega)
    obtain ⟨c, rest, digits, digit⟩ := exists_padded_eq_cons 4 year.natAbs
    rw [yearText_of_plain plain]
    rw [digits, List.cons_append] at number ⊢
    rw [readYear?_of_isDigit digit, number]
    show some ((year.natAbs : Int), after) = some (year, after)
    rw [Int.natAbs_of_nonneg plain.1]
  · obtain ⟨sign, isSign, written, value⟩ := yearText_of_not_plain plain
    rw [written, readYear?_signed isSign (fun c => isDigit_of_mem_padded) (padded_ne_nil _ _)
      (ends.resolve_left plain), digitsValue_padded, ← value]

/-- A number cannot begin with any other character than a blank or a digit. -/
theorem readPair?_cons_of_other
    {c : Char}
    (notBlank : Text.isBlank c = false)
    (notDigit : c.isDigit = false) :
    readPair? (c :: after) = none := by
  simp [readPair?, Text.trimStart, readDigits?, leadingDigits, notBlank, notDigit]

/-! ### Rows of items -/

theorem daysInMonth_le (year : Int) (month : Nat) : daysInMonth year month ≤ 31 := by
  have february : (if isLeapYear year then 29 else 28) ≤ 31 := by
    split <;> omega
  unfold daysInMonth
  split <;> omega

theorem daysInMonth_of_late {month : Nat} (late : 12 < month) : daysInMonth year month = 0 := by
  unfold daysInMonth
  split <;> omega

theorem month_lt (date : Date) : date.month < 100 := by
  have bounds := date.day_bounds
  by_cases late : 12 < date.month
  · rw [daysInMonth_of_late late] at bounds
    omega
  · omega

theorem day_lt (date : Date) : date.day < 100 := by
  have bounds := date.day_bounds
  have short := daysInMonth_le date.year date.month
  omega

/-- A clock reads the time that was written for it and leaves the rest. -/
theorem readAll?_clock
    (fields : Fields)
    (time : TimeOfDay)
    (after : List Char)
    (layout : List LayoutItem) :
    readAll? fields (clockText time ++ after) (clock ++ layout) =
      readAll?
        { fields with hour := time.hour, minute := time.minute, second := time.shownSecond }
        after layout := by
  have bounds := time.bounds
  have hour_lt : time.hour < 100 := by omega
  have minute_lt : time.minute < 100 := by omega
  have shownSecond_lt : time.shownSecond < 100 := by
    rw [TimeOfDay.shownSecond]
    omega
  have hour := readPair?_padded
    (':' :: padded 2 time.minute ++ ':' :: padded 2 time.shownSecond ++ after) hour_lt
  have minute := readPair?_padded (':' :: padded 2 time.shownSecond ++ after) minute_lt
  have second := readPair?_padded after shownSecond_lt
  simp only [clock, clockText, List.append_assoc, List.cons_append, List.nil_append, readAll?,
    readItem?] at hour minute second ⊢
  simp [hour, minute, second]

/-- A date with dashes reads the day that was written so, whatever its year, and leaves the rest. -/
theorem readAll?_dashedDate
    (fields : Fields)
    (date : Date)
    (after : List Char)
    (layout : List LayoutItem) :
    readAll? fields (dateText ['-'] date ++ after) (dashedDate ++ layout) =
      readAll? { fields with year := date.year, month := date.month, day := date.day }
        after layout := by
  have dash : ∀ c ∈ ('-' :: (padded 2 date.month ++ '-' :: (padded 2 date.day ++ after))).head?,
      c.isDigit = false := by
    intro c first
    obtain rfl := Option.some.inj first
    rfl
  have year := readYear?_yearText date.year _ (.inr dash)
  have month := readPair?_padded ('-' :: (padded 2 date.day ++ after)) (month_lt date)
  have day := readPair?_padded after (day_lt date)
  simp [dashedDate, dateText, readAll?, readItem?, year, month, day]

/-- Without separators a year of four digits ends where the month begins. -/
theorem readYear?_compactDate
    {date : Date}
    (plain : 0 ≤ date.year ∧ date.year ≤ 9999)
    (after : List Char) :
    readYear? (dateText [] date ++ after) =
      some (date.year, padded 2 date.month ++ (padded 2 date.day ++ after)) := by
  have year := readYear?_yearText date.year
    (padded 2 date.month ++ (padded 2 date.day ++ after)) (.inl plain)
  simpa [dateText] using year

/-- Without separators a year with a sign takes the digits of the month and of the day as well. -/
theorem readYear?_compactDate_of_signed
    {date : Date}
    (signed : ¬(0 ≤ date.year ∧ date.year ≤ 9999))
    (after : List Char)
    (ends : ∀ c ∈ after.head?, c.isDigit = false) :
    ∃ year, readYear? (dateText [] date ++ after) = some (year, after) := by
  obtain ⟨sign, isSign, written, -⟩ := yearText_of_not_plain signed
  have allNumbers : dateText [] date ++ after =
      sign :: (padded 4 date.year.natAbs ++ padded 2 date.month ++ padded 2 date.day)
        ++ after := by
    simp [dateText, written]
  have digits : ∀ c ∈ padded 4 date.year.natAbs ++ padded 2 date.month ++ padded 2 date.day,
      c.isDigit = true := by
    intro c member
    simp only [List.mem_append] at member
    rcases member with (year | month) | day
    · exact isDigit_of_mem_padded year
    · exact isDigit_of_mem_padded month
    · exact isDigit_of_mem_padded day
  have nonempty : padded 4 date.year.natAbs ++ padded 2 date.month ++ padded 2 date.day ≠ [] :=
    List.append_ne_nil_of_right_ne_nil _ (padded_ne_nil 2 date.day)
  rw [allNumbers, readYear?_signed isSign digits nonempty ends]
  exact ⟨_, rfl⟩

/-- A date without separators is read if its year has four digits. -/
theorem readAll?_compactDate
    (fields : Fields)
    {date : Date}
    (plain : 0 ≤ date.year ∧ date.year ≤ 9999)
    (after : List Char)
    (layout : List LayoutItem) :
    readAll? fields (dateText [] date ++ after) (.year :: .month :: .day :: layout) =
      readAll? { fields with year := date.year, month := date.month, day := date.day }
        after layout := by
  have year := readYear?_compactDate plain after
  have month := readPair?_padded (padded 2 date.day ++ after) (month_lt date)
  have day := readPair?_padded after (day_lt date)
  simp [readAll?, readItem?, year, month, day]

/-- A date with dashes refuses what has no dash behind its year. -/
theorem readAll?_dashedDate_eq_none
    {text : List Char}
    (fields : Fields)
    (read : readYear? text = some (year, after))
    (noDash : after.head? ≠ some '-')
    (layout : List LayoutItem) :
    readAll? fields text (dashedDate ++ layout) = none := by
  cases after with
  | nil => simp [dashedDate, readAll?, readItem?, read]
  | cons c after =>
    have other : '-' ≠ c := by
      rintro rfl
      exact noDash rfl
    simp [dashedDate, readAll?, readItem?, read, other]

end Layout

end ObjectQuery
