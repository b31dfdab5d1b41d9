import ObjectQuery.Proofs.Calendar.Layout
import ObjectQuery.Proofs.Text.Quoted
import ObjectQuery.Sql.Config
import ObjectQuery.Value.Operators

/-!
Contract: what is written of an instant is read back as that instant without its fraction.

The layouts are tried in turn, so a text is read back if its own layout reads it and every layout in
front of that one refuses it. A layout with dashes needs one behind the year, and a clock does not
begin with a letter, which keeps the three written forms apart.

Owns:
- the written forms of an instant and the layout that reads each of them;
- which instants are read back, among white space too;
- the comparison of an instant with its own text.

Does not own: texts that nobody has written, and the fraction of a second in stored documents.
-/

namespace ObjectQuery

namespace Layout

variable {date : Date} {time : TimeOfDay} {separator : List Char}

/-! ### Characters -/

theorem mem_yearText {c : Char} {year : Int} (member : c ∈ yearText year) :
    c.isDigit = true ∨ c = '-' ∨ c = '+' := by
  by_cases plain : 0 ≤ year ∧ year ≤ 9999
  · rw [yearText_of_plain plain] at member
    exact .inl (isDigit_of_mem_padded member)
  · obtain ⟨sign, isSign, written, -⟩ := yearText_of_not_plain plain
    rw [written] at member
    rcases List.mem_cons.mp member with rfl | digit
    · exact .inr isSign
    · exact .inl (isDigit_of_mem_padded digit)

theorem mem_dateText {c : Char} (member : c ∈ dateText separator date) :
    c.isDigit = true ∨ c = '-' ∨ c = '+' ∨ c ∈ separator := by
  simp only [dateText, List.mem_append] at member
  rcases member with (((year | mark) | month) | mark) | day
  · rcases mem_yearText year with digit | rfl | rfl
    · exact .inl digit
    · exact .inr (.inl rfl)
    · exact .inr (.inr (.inl rfl))
  · exact .inr (.inr (.inr mark))
  · exact .inl (isDigit_of_mem_padded month)
  · exact .inr (.inr (.inr mark))
  · exact .inl (isDigit_of_mem_padded day)

theorem mem_clockText {c : Char} (member : c ∈ clockText time) : c.isDigit = true ∨ c = ':' := by
  simp only [clockText, List.mem_append, List.mem_cons] at member
  rcases member with (hour | mark | minute) | mark | second
  · exact .inl (isDigit_of_mem_padded hour)
  · exact .inr mark
  · exact .inl (isDigit_of_mem_padded minute)
  · exact .inr mark
  · exact .inl (isDigit_of_mem_padded second)

theorem isGraphic_dash : ∀ c ∈ ['-'], isGraphic c = true :=
  List.forall_mem_singleton.mpr rfl

theorem isGraphic_of_mem_dateText
    {c : Char}
    (graphic : ∀ d ∈ separator, isGraphic d = true)
    (member : c ∈ dateText separator date) :
    isGraphic c = true := by
  rcases mem_dateText member with digit | rfl | rfl | mark
  · exact isGraphic_of_isDigit digit
  · rfl
  · rfl
  · exact graphic c mark

theorem isGraphic_of_mem_clockText {c : Char} (member : c ∈ clockText time) :
    isGraphic c = true := by
  rcases mem_clockText member with digit | rfl
  · exact isGraphic_of_isDigit digit
  · rfl

theorem dateText_ne_nil (separator : List Char) (date : Date) : dateText separator date ≠ [] :=
  List.append_ne_nil_of_right_ne_nil _ (padded_ne_nil 2 date.day)

theorem clockText_ne_nil (time : TimeOfDay) : clockText time ≠ [] := by
  simp [clockText]

/-! ### The day and the time that were written -/

theorem make?_self (date : Date) : Date.make? date.year date.month date.day = some date := by
  rw [Date.make?, dif_pos ⟨date.year_bounds, date.day_bounds⟩]

/-- The shown second leads back to a leap second as well. -/
theorem make?_shown (time : TimeOfDay) :
    TimeOfDay.make? time.hour time.minute time.shownSecond 0 =
      some
        { time with
          nanosecond := time.nanosecond - time.fraction
          bounds := by
            have := time.bounds
            omega
          leap_bounds := by
            have := time.leap_bounds
            omega } := by
  obtain ⟨hour, minute, second, nanosecond, bounds, leapBounds⟩ := time
  simp only [TimeOfDay.shownSecond, TimeOfDay.fraction]
  by_cases leap : 1000000000 ≤ nanosecond
  · have last := leapBounds leap
    rw [TimeOfDay.make?, dif_neg (by omega), dif_pos (by omega)]
    simp only [Option.some.injEq, TimeOfDay.mk.injEq, true_and]
    omega
  · rw [TimeOfDay.make?, dif_pos (by omega)]
    simp only [Option.some.injEq, TimeOfDay.mk.injEq, true_and]
    omega

theorem toDateTime?_eq (instant : DateTime) :
    Fields.toDateTime?
      { year := instant.date.year
        month := instant.date.month
        day := instant.date.day
        hour := instant.time.hour
        minute := instant.time.minute
        second := instant.time.shownSecond } = some instant.truncate := by
  simp only [Fields.toDateTime?, make?_self, make?_shown]
  rfl

/-! ### Clocks -/

theorem exists_clockText_eq (time : TimeOfDay) :
    ∃ c rest, clockText time = c :: rest ∧ c.isDigit = true := by
  obtain ⟨c, rest, digits, digit⟩ := exists_padded_eq_cons 2 time.hour
  refine ⟨c, rest ++ ':' :: padded 2 time.minute ++ ':' :: padded 2 time.shownSecond, ?_, digit⟩
  rw [clockText, digits]
  rfl

/-- White space in front of a clock does not count. -/
theorem trimStart_clockText (time : TimeOfDay) :
    Text.trimStart (' ' :: clockText time) = clockText time := by
  obtain ⟨c, rest, written, digit⟩ := exists_clockText_eq time
  rw [written]
  show Text.trimStart (c :: rest) = c :: rest
  exact trimStart_cons_of_isDigit digit

theorem readAll?_clockText (fields : Fields) (time : TimeOfDay) :
    readAll? fields (clockText time) clock =
      some
        { fields with
          hour := time.hour
          minute := time.minute
          second := time.shownSecond } := by
  have read := readAll?_clock fields time [] []
  rw [List.append_nil, List.append_nil] at read
  rw [read]
  rfl

/-! ### Layouts and texts -/

variable (instant : DateTime)

theorem read?_dashed_blank :
    read? (dashedDate ++ .blank :: clock)
        (dateText ['-'] instant.date ++ ' ' :: clockText instant.time) =
      some instant.truncate := by
  rw [read?, readAll?_dashedDate]
  simp only [readAll?, readItem?, trimStart_clockText, Option.bind_eq_bind, Option.bind_some,
    readAll?_clockText]
  exact toDateTime?_eq instant

/-- A letter is no white space. -/
theorem read?_dashed_blank_of_letter :
    read? (dashedDate ++ .blank :: clock)
        (dateText ['-'] instant.date ++ 'T' :: clockText instant.time) = none := by
  have solid : Text.trimStart ('T' :: clockText instant.time) = 'T' :: clockText instant.time := rfl
  have noNumber : readPair? ('T' :: clockText instant.time) = none :=
    readPair?_cons_of_other (by decide) (by decide)
  rw [read?, readAll?_dashedDate]
  simp only [readAll?, readItem?, solid, clock, noNumber, Option.bind_eq_bind, Option.bind_some,
    Option.map_none, Option.bind_none]

theorem read?_dashed_letter :
    read? (dashedDate ++ .mark 'T' :: clock)
        (dateText ['-'] instant.date ++ 'T' :: clockText instant.time) =
      some instant.truncate := by
  rw [read?, readAll?_dashedDate]
  simp only [readAll?, readItem?, if_true, Option.bind_eq_bind, Option.bind_some,
    readAll?_clockText]
  exact toDateTime?_eq instant

/-! ### Dates without separators -/

/-- Behind the year of a compact text there is no dash: either a further number begins or, where the
year has a sign, all three numbers have been taken for the year and a blank follows. -/
theorem read?_dashed_of_compact (layout : List LayoutItem) :
    read? (dashedDate ++ layout) (dateText [] instant.date ++ ' ' :: clockText instant.time) =
      none := by
  rw [read?]
  by_cases plain : 0 ≤ instant.date.year ∧ instant.date.year ≤ 9999
  · have year := readYear?_compactDate plain (' ' :: clockText instant.time)
    obtain ⟨c, rest, month, digit⟩ := exists_padded_eq_cons 2 instant.date.month
    have noDash : (padded 2 instant.date.month ++
        (padded 2 instant.date.day ++ ' ' :: clockText instant.time)).head? ≠ some '-' := by
      rw [month]
      intro dash
      obtain rfl : c = '-' := Option.some.inj dash
      cases digit
    rw [readAll?_dashedDate_eq_none {} year noDash]
    rfl
  · obtain ⟨_, year⟩ :=
      readYear?_compactDate_of_signed plain (' ' :: clockText instant.time) (by simp)
    rw [readAll?_dashedDate_eq_none {} year (by simp)]
    rfl

theorem read?_compact (plain : 0 ≤ instant.date.year ∧ instant.date.year ≤ 9999) :
    read? (.year :: .month :: .day :: .blank :: clock)
        (dateText [] instant.date ++ ' ' :: clockText instant.time) =
      some instant.truncate := by
  rw [read?, readAll?_compactDate {} plain]
  simp only [readAll?, readItem?, trimStart_clockText, Option.bind_eq_bind, Option.bind_some,
    readAll?_clockText]
  exact toDateTime?_eq instant

/-- A year with a sign takes the digits of the month and of the day, so that the hour is read as the
month, and then there is no day. -/
theorem read?_compact_of_signed (signed : ¬(0 ≤ instant.date.year ∧ instant.date.year ≤ 9999)) :
    read? (.year :: .month :: .day :: .blank :: clock)
        (dateText [] instant.date ++ ' ' :: clockText instant.time) = none := by
  obtain ⟨_, year⟩ :=
    readYear?_compactDate_of_signed signed (' ' :: clockText instant.time) (by simp)
  have bounds := instant.time.bounds
  have hour : readPair? (' ' :: clockText instant.time) =
      some (instant.time.hour,
        ':' :: padded 2 instant.time.minute ++ ':' :: padded 2 instant.time.shownSecond) := by
    rw [readPair?, trimStart_clockText, clockText, List.append_assoc]
    exact readDigits?_padded _ (by decide) (by omega)
  have noDay : readPair?
      (':' :: padded 2 instant.time.minute ++ ':' :: padded 2 instant.time.shownSecond) = none :=
    readPair?_cons_of_other (by decide) (by decide)
  simp only [read?, readAll?, readItem?, year, hour, noDay, Option.bind_eq_bind, Option.bind_some,
    Option.map_some, Option.map_none, Option.bind_none]

end Layout

/-! ## Instants -/

namespace DateTime

open Layout

variable (instant : DateTime) (before after : String)

/-- A written date and clock with a mark between them begin and end with graphic characters, so that
white space around them is trimmed and nothing else. -/
theorem parse?_written
    {separator : List Char}
    (graphic : ∀ c ∈ separator, isGraphic c = true)
    (mark : Char)
    (blanksBefore : ∀ c ∈ before.toList, Text.isBlank c = true)
    (blanksAfter : ∀ c ∈ after.toList, Text.isBlank c = true) :
    parse?
        (before
          ++ String.ofList (dateText separator instant.date ++ mark :: clockText instant.time)
          ++ after) =
      accepted.findSome? fun layout =>
        read? layout (dateText separator instant.date ++ mark :: clockText instant.time) := by
  have trimmed :
      Text.trimChars
          (before.toList ++ (dateText separator instant.date ++ mark :: clockText instant.time)
            ++ after.toList) =
        dateText separator instant.date ++ mark :: clockText instant.time := by
    apply Text.trimChars_surrounded (by simp) _ _ blanksBefore blanksAfter
    · intro c first
      rw [List.head?_append, List.head?_eq_some_head (dateText_ne_nil separator _)] at first
      obtain rfl := Option.some.inj first
      exact isBlank_of_isGraphic (isGraphic_of_mem_dateText graphic (List.head_mem _))
    · intro c last
      rw [List.append_cons, List.getLast?_append,
        List.getLast?_eq_some_getLast (clockText_ne_nil _)] at last
      obtain rfl := Option.some.inj last
      exact isBlank_of_isGraphic (isGraphic_of_mem_clockText (List.getLast_mem _))
  rw [parse?, String.toList_append, String.toList_append, String.toList_ofList, trimmed]

theorem parse?_text
    (blanksBefore : ∀ c ∈ before.toList, Text.isBlank c = true)
    (blanksAfter : ∀ c ∈ after.toList, Text.isBlank c = true) :
    parse? (before ++ instant.text ++ after) = some instant.truncate := by
  rw [text, parse?_written instant before after isGraphic_dash ' ' blanksBefore blanksAfter, accepted,
    List.findSome?_cons, read?_dashed_blank]

/-- The text with a letter between date and clock. -/
theorem map_text_eq (mark : Char) :
    instant.text.map (fun c => if c = ' ' then mark else c) =
      String.ofList (dateText ['-'] instant.date ++ mark :: clockText instant.time) := by
  have kept (part : List Char) (graphic : ∀ c ∈ part, isGraphic c = true) :
      part.map (fun c => if c = ' ' then mark else c) = part := by
    have same : ∀ c ∈ part, (if c = ' ' then mark else c) = id c := by
      intro c member
      apply if_neg
      rintro rfl
      exact absurd (graphic ' ' member) (by decide)
    rw [List.map_congr_left same, List.map_id]
  rw [← String.toList_inj, String.toList_map, text, String.toList_ofList, String.toList_ofList,
    List.map_append, List.map_cons, if_pos rfl,
    kept _ fun c member => isGraphic_of_mem_dateText isGraphic_dash member,
    kept _ fun c member => isGraphic_of_mem_clockText member]

theorem parse?_text_letter
    (blanksBefore : ∀ c ∈ before.toList, Text.isBlank c = true)
    (blanksAfter : ∀ c ∈ after.toList, Text.isBlank c = true) :
    parse? (before ++ instant.text.map (fun c => if c = ' ' then 'T' else c) ++ after) =
      some instant.truncate := by
  rw [map_text_eq, parse?_written instant before after isGraphic_dash 'T' blanksBefore blanksAfter,
    accepted, List.findSome?_cons, read?_dashed_blank_of_letter, List.findSome?_cons,
    read?_dashed_letter]

/-- The compact text is read back as long as its year has four digits, and is no date otherwise. -/
theorem parse?_compactText
    (blanksBefore : ∀ c ∈ before.toList, Text.isBlank c = true)
    (blanksAfter : ∀ c ∈ after.toList, Text.isBlank c = true) :
    parse? (before ++ instant.compactText ++ after) =
      if 0 ≤ instant.date.year ∧ instant.date.year ≤ 9999 then some instant.truncate else none := by
  have dashedAlone := read?_dashed_of_compact instant []
  rw [List.append_nil] at dashedAlone
  rw [compactText, parse?_written instant before after (by simp) ' ' blanksBefore blanksAfter]
  simp only [accepted, List.append_assoc, List.findSome?_cons, List.findSome?_nil,
    read?_dashed_of_compact, dashedAlone]
  by_cases plain : 0 ≤ instant.date.year ∧ instant.date.year ≤ 9999
  · rw [if_pos plain, read?_compact instant plain]
  · rw [if_neg plain, read?_compact_of_signed instant plain]

/-- The literal of an instant is its compact text between quotes. -/
theorem literal_eq (config : Sql.Config) :
    config.literal (.dateTime instant) = "'" ++ instant.compactText ++ "'" := by
  have noQuote : '\'' ∉ instant.compactText.toList := by
    rw [compactText, String.toList_ofList, List.mem_append, List.mem_cons]
    rintro (ofDate | isBlank | ofClock)
    · rcases mem_dateText ofDate with digit | dash | plus | separator <;> contradiction
    · contradiction
    · rcases mem_clockText ofClock with digit | colon <;> contradiction
  rw [← String.toList_inj]
  simp [Sql.Config.literal, Text.quote, Text.Quoted.quoteWith,
    Text.Quoted.escape_of_not_mem noQuote]

/-! ### Comparison -/

theorem fields_inj {x y : DateTime} : x.fields = y.fields ↔ x = y := by
  obtain ⟨⟨year, month, day, _, _⟩, ⟨hour, minute, second, nanosecond, _, _⟩⟩ := x
  obtain ⟨⟨year', month', day', _, _⟩, ⟨hour', minute', second', nanosecond', _, _⟩⟩ := y
  simp only [fields, List.cons.injEq, and_true, DateTime.mk.injEq, Date.mk.injEq,
    TimeOfDay.mk.injEq]
  omega

theorem compare_eq_iff {x y : DateTime} : x.compare y = .eq ↔ x = y := by
  rw [compare, Std.compare_eq_iff_eq, fields_inj]

theorem truncate_eq_self_iff : instant.truncate = instant ↔ instant.time.fraction = 0 := by
  obtain ⟨date, ⟨hour, minute, second, nanosecond, bounds, leapBounds⟩⟩ := instant
  simp only [truncate, TimeOfDay.fraction, DateTime.mk.injEq, TimeOfDay.mk.injEq, true_and]
  omega

end DateTime

namespace Value

/-- An instant beside a text is compared with the instant that the text is read as, whichever stands
first. -/
theorem compare_dateTime_string
    {op : RelationalOp}
    (instant : DateTime)
    {read : DateTime}
    {source : String}
    (notLike : op ≠ .like)
    (reads : DateTime.parse? source = some read) :
    compare op (.dateTime instant) (.string source) = .ok (some (op.holds (instant.compare read))) ∧
      compare op (.string source) (.dateTime instant) =
        .ok (some (op.holds (read.compare instant))) := by
  constructor
  · have noFlag : booleanNumberEquality? op (.dateTime instant) (.string source) = none := by
      cases op <;> rfl
    have promoted : Operands.promote op.symbol (.dateTime instant) (.string source) =
        .ok (.instants instant read) := by
      simp [Operands.promote, Operands.promote?, isNull, isDateTime, toDateTime?, reads]
    rw [compare, if_neg notLike, noFlag, promoted]
    rfl
  · have noFlag : booleanNumberEquality? op (.string source) (.dateTime instant) = none := by
      cases op <;> rfl
    have promoted : Operands.promote op.symbol (.string source) (.dateTime instant) =
        .ok (.instants read instant) := by
      simp [Operands.promote, Operands.promote?, isNull, isDateTime, toDateTime?, reads]
    rw [compare, if_neg notLike, noFlag, promoted]
    rfl

/-- An instant equals its own text exactly if it has no fraction of a second. -/
theorem compare_text (instant : DateTime) :
    compare .equal (.dateTime instant) (.string (Value.dateTime instant).text) =
        .ok (some (decide (instant.time.fraction = 0))) ∧
      compare .equal (.string (Value.dateTime instant).text) (.dateTime instant) =
        .ok (some (decide (instant.time.fraction = 0))) := by
  have reads : DateTime.parse? (Value.dateTime instant).text = some instant.truncate := by
    have alone := instant.parse?_text "" "" (by simp) (by simp)
    rwa [String.empty_append, String.append_empty] at alone
  have equal (x y : DateTime) : RelationalOp.equal.holds (x.compare y) = decide (x = y) := by
    by_cases same : x = y
    · rw [RelationalOp.holds, DateTime.compare_eq_iff.mpr same, decide_eq_true same]
      rfl
    · rw [RelationalOp.holds, decide_eq_false same]
      exact beq_eq_false_iff_ne.mpr fun equal => same (DateTime.compare_eq_iff.mp equal)
  have whole := instant.truncate_eq_self_iff
  have notLike : RelationalOp.equal ≠ .like := RelationalOp.noConfusion
  obtain ⟨left, right⟩ := compare_dateTime_string instant notLike reads
  constructor
  · rw [left, equal, decide_eq_decide.mpr (eq_comm.trans whole)]
  · rw [right, equal, decide_eq_decide.mpr whole]

end Value

/-- What is written of an instant is read back as that instant without its fraction, white space
around it aside: its text, the same text with a letter for the blank, and, for years of four digits,
the body of its literal. So an instant equals its own text if it has no fraction. -/
theorem written_instants_read_back (instant : DateTime) :
    (∀ before after : String,
      (∀ c ∈ before.toList, Text.isBlank c = true) →
        (∀ c ∈ after.toList, Text.isBlank c = true) →
          DateTime.parse? (before ++ (Value.dateTime instant).text ++ after) =
              some instant.truncate ∧
            DateTime.parse?
                (before ++ (Value.dateTime instant).text.map (fun c => if c = ' ' then 'T' else c)
                  ++ after) =
              some instant.truncate ∧
            DateTime.parse? (before ++ instant.compactText ++ after) =
              if 0 ≤ instant.date.year ∧ instant.date.year ≤ 9999 then some instant.truncate
              else none) ∧
      (∀ config : Sql.Config,
        config.literal (.dateTime instant) = "'" ++ instant.compactText ++ "'") ∧
      Value.compare .equal (.dateTime instant) (.string (Value.dateTime instant).text) =
        .ok (some (decide (instant.time.fraction = 0))) ∧
      Value.compare .equal (.string (Value.dateTime instant).text) (.dateTime instant) =
        .ok (some (decide (instant.time.fraction = 0))) := by
  refine ⟨?_, instant.literal_eq, Value.compare_text instant⟩
  intro before after blanksBefore blanksAfter
  refine ⟨?_, ?_, ?_⟩
  · exact instant.parse?_text before after blanksBefore blanksAfter
  · exact instant.parse?_text_letter before after blanksBefore blanksAfter
  · exact instant.parse?_compactText before after blanksBefore blanksAfter

/-- The added day of an early leap year, half a second after a full one. -/
def leapDay : DateTime :=
  ⟨⟨4, 2, 29, by decide, by decide⟩, ⟨7, 5, 9, 500000000, by decide, by decide⟩⟩

theorem written_instants_read_back_leapDay :
    (∀ c ∈ "\t".toList, Text.isBlank c = true) ∧
      (∀ c ∈ "\u00a0\n".toList, Text.isBlank c = true) ∧
      DateTime.parse? ("\t" ++ "0004-02-29 07:05:09" ++ "\u00a0\n") = some leapDay.truncate ∧
      DateTime.parse? ("\t" ++ "0004-02-29T07:05:09" ++ "\u00a0\n") = some leapDay.truncate ∧
      DateTime.parse? ("\t" ++ "00040229 07:05:09" ++ "\u00a0\n") = some leapDay.truncate ∧
      Value.compare .equal (.dateTime leapDay) (.string "0004-02-29 07:05:09") =
        .ok (some false) := by
  have before : ∀ c ∈ "\t".toList, Text.isBlank c = true :=
    List.all_eq_true.mp (by decide)
  have after : ∀ c ∈ "\u00a0\n".toList, Text.isBlank c = true :=
    List.all_eq_true.mp (by decide)
  have text : (Value.dateTime leapDay).text = "0004-02-29 07:05:09" := by cbv
  have letter : "0004-02-29 07:05:09".map (fun c => if c = ' ' then 'T' else c) =
      "0004-02-29T07:05:09" := by cbv
  have compact : leapDay.compactText = "00040229 07:05:09" := by cbv
  have written := written_instants_read_back leapDay
  rw [text, letter, compact] at written
  obtain ⟨blank, mark, plain⟩ := written.1 "\t" "\u00a0\n" before after
  exact ⟨before, after, blank, mark, plain, written.2.2.1⟩

end ObjectQuery
