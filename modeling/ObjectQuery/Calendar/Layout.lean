import ObjectQuery.Calendar
import ObjectQuery.Number.Power
import ObjectQuery.Text.Blank
import ObjectQuery.Text.Digits

/-!
Contract: dates and times written and read by layouts.

When a text is read, each number may have blanks in front and fewer digits than its width, a blank
of the layout stands for any amount of white space, and the whole text has to be used up. A year
with a sign may have any number of digits.

Owns:
- `LayoutItem` and the reader of one layout;
- `DateTime.parse?`, which tries the accepted layouts in turn;
- `DateTime.ofIso?`, the single layout of stored documents;
- the written forms `text`, `compactText` and `isoText`.
-/

namespace ObjectQuery

/-- A part of a layout. -/
inductive LayoutItem where
  | year
  | month
  | day
  | hour
  | minute
  | second
  | fraction
  | blank
  | mark (c : Char)
deriving DecidableEq, Repr

namespace Layout

/-- The numbers that a layout has collected. -/
structure Fields where
  year : Int := 0
  month : Nat := 0
  day : Nat := 0
  hour : Nat := 0
  minute : Nat := 0
  second : Nat := 0
  fraction : Nat := 0
deriving DecidableEq, Repr

/-- The leading digits, at most `width` of them. -/
def leadingDigits (width : Nat) (text : List Char) : List Char :=
  (text.take width).takeWhile Char.isDigit

/-- Reads at least one and at most `width` digits. -/
def readDigits? (width : Nat) (text : List Char) : Option (Nat × List Char) :=
  let digits := leadingDigits width text
  if digits.isEmpty then none else some (Text.digitsValue digits, text.drop digits.length)

/-- Reads blanks and then one or two digits. -/
def readPair? (text : List Char) : Option (Nat × List Char) :=
  readDigits? 2 (Text.trimStart text)

/-- Reads blanks and then a year: up to four digits, or a sign and any number of digits. -/
def readYear? (text : List Char) : Option (Int × List Char) :=
  match Text.trimStart text with
  | '-' :: rest => (readDigits? rest.length rest).map fun (value, after) => (-(value : Int), after)
  | '+' :: rest => (readDigits? rest.length rest).map fun (value, after) => ((value : Int), after)
  | rest => (readDigits? 4 rest).map fun (value, after) => ((value : Int), after)

/-- Reads nothing, or a point and a fraction of a second; digits after the ninth do not count. -/
def readFraction? : List Char → Option (Nat × List Char)
  | '.' :: rest =>
    let digits := leadingDigits 9 rest
    if digits.isEmpty then none
    else
      some (Text.digitsValue digits * 10 ^ (9 - digits.length), rest.dropWhile Char.isDigit)
  | rest => some (0, rest)

/-- Reads what one item of a layout stands for. -/
def readItem? (fields : Fields) (text : List Char) : LayoutItem → Option (Fields × List Char)
  | .year => (readYear? text).map fun (value, rest) => ({ fields with year := value }, rest)
  | .month => (readPair? text).map fun (value, rest) => ({ fields with month := value }, rest)
  | .day => (readPair? text).map fun (value, rest) => ({ fields with day := value }, rest)
  | .hour => (readPair? text).map fun (value, rest) => ({ fields with hour := value }, rest)
  | .minute => (readPair? text).map fun (value, rest) => ({ fields with minute := value }, rest)
  | .second => (readPair? text).map fun (value, rest) => ({ fields with second := value }, rest)
  | .fraction =>
    (readFraction? text).map fun (value, rest) => ({ fields with fraction := value }, rest)
  | .blank => some (fields, Text.trimStart text)
  | .mark c =>
    match text with
    | d :: rest => if c = d then some (fields, rest) else none
    | [] => none

/-- Reads a whole text by a layout. -/
def readAll? (fields : Fields) (text : List Char) : List LayoutItem → Option Fields
  | [] => if text.isEmpty then some fields else none
  | item :: layout => do
    let (fields, rest) ← readItem? fields text item
    readAll? fields rest layout

/-- The instant with these numbers, if there is one. -/
def Fields.toDateTime? (fields : Fields) : Option DateTime := do
  let date ← Date.make? fields.year fields.month fields.day
  let time ← TimeOfDay.make? fields.hour fields.minute fields.second fields.fraction
  pure ⟨date, time⟩

/-- Reads an instant by a layout. -/
def read? (layout : List LayoutItem) (text : List Char) : Option DateTime := do
  let fields ← readAll? {} text layout
  fields.toDateTime?

/-- A date with dashes. -/
def dashedDate : List LayoutItem := [.year, .mark '-', .month, .mark '-', .day]

/-- A time of day with colons. -/
def clock : List LayoutItem := [.hour, .mark ':', .minute, .mark ':', .second]

/-- The layouts of a date and time in the order in which they are tried; a date alone is last and
stands for its midnight. -/
def accepted : List (List LayoutItem) :=
  [ dashedDate ++ .blank :: clock,
    dashedDate ++ .mark 'T' :: clock,
    dashedDate ++ .blank :: clock ++ [.fraction],
    dashedDate ++ .mark 'T' :: clock ++ [.fraction],
    .year :: .month :: .day :: .blank :: clock,
    dashedDate ]

/-- The layout of stored documents, with blanks between all parts. -/
def iso : List LayoutItem :=
  [.year, .blank, .mark '-', .month, .blank, .mark '-', .day, .blank, .mark 'T',
    .hour, .blank, .mark ':', .minute, .blank, .mark ':', .second, .fraction, .blank]

/-- The number with zeros in front up to a width. -/
def padded (width value : Nat) : List Char :=
  let digits := Nat.toDigits 10 value
  List.replicate (width - digits.length) '0' ++ digits

/-- Four digits, with a sign when the year is negative or has more of them. -/
def yearText (year : Int) : List Char :=
  let sign := if year < 0 then ['-'] else if 9999 < year then ['+'] else []
  sign ++ padded 4 year.natAbs

/-- Year, month and day with a separator. -/
def dateText (separator : List Char) (date : Date) : List Char :=
  yearText date.year ++ separator ++ padded 2 date.month ++ separator ++ padded 2 date.day

/-- Hour, minute and second with colons. -/
def clockText (time : TimeOfDay) : List Char :=
  padded 2 time.hour ++ ':' :: padded 2 time.minute ++ ':' :: padded 2 time.shownSecond

/-- A point and three, six or nine digits, the fewest that are exact; nothing for a whole second. -/
def fractionText (time : TimeOfDay) : List Char :=
  let fraction := time.fraction
  if fraction = 0 then []
  else if fraction % 1000000 = 0 then '.' :: padded 3 (fraction / 1000000)
  else if fraction % 1000 = 0 then '.' :: padded 6 (fraction / 1000)
  else '.' :: padded 9 fraction

end Layout

namespace DateTime

/-- Reads a text in one of the accepted layouts, blanks at both ends aside. -/
def parse? (source : String) : Option DateTime :=
  Layout.accepted.findSome? fun layout => Layout.read? layout (Text.trimChars source.toList)

/-- Reads the form that stored documents use. -/
def ofIso? (source : String) : Option DateTime :=
  Layout.read? Layout.iso source.toList

/-- Date and time with a blank between them, without a fraction. -/
def text (instant : DateTime) : String :=
  String.ofList
    (Layout.dateText ['-'] instant.date ++ ' ' :: Layout.clockText instant.time)

/-- The date without separators, a blank, and the time without a fraction. -/
def compactText (instant : DateTime) : String :=
  String.ofList (Layout.dateText [] instant.date ++ ' ' :: Layout.clockText instant.time)

/-- Date and time with a `T` between them and the fraction where there is one. -/
def isoText (instant : DateTime) : String :=
  String.ofList
    (Layout.dateText ['-'] instant.date ++ 'T' :: Layout.clockText instant.time
      ++ Layout.fractionText instant.time)

end DateTime

end ObjectQuery
