/-!
Contract: dates of the proleptic Gregorian calendar with a time of day, without a time zone.

Owns: `Date`, `TimeOfDay`, `DateTime`, their validity and their order.

Does not own: dates and times as text.
-/

namespace ObjectQuery

/-- Divisible by 4, but of the full centuries only every fourth. -/
def isLeapYear (year : Int) : Bool :=
  year % 4 == 0 && (year % 100 != 0 || year % 400 == 0)

/-- The number of days of a month, 0 when there is no such month. -/
def daysInMonth (year : Int) (month : Nat) : Nat :=
  match month with
  | 1 | 3 | 5 | 7 | 8 | 10 | 12 => 31
  | 4 | 6 | 9 | 11 => 30
  | 2 => if isLeapYear year then 29 else 28
  | _ => 0

/-- A day of the calendar between the years -262143 and 262142. -/
structure Date where
  year : Int
  month : Nat
  day : Nat
  year_bounds : -262143 ≤ year ∧ year ≤ 262142
  day_bounds : 1 ≤ day ∧ day ≤ daysInMonth year month
deriving DecidableEq, Repr

/-- The day with these numbers, if there is one. -/
def Date.make? (year : Int) (month day : Nat) : Option Date :=
  if bounds : (-262143 ≤ year ∧ year ≤ 262142) ∧ 1 ≤ day ∧ day ≤ daysInMonth year month then
    some ⟨year, month, day, bounds.1, bounds.2⟩
  else
    none

/-- A time of day. A leap second counts as second 59 with a billion nanoseconds or more. -/
structure TimeOfDay where
  hour : Nat
  minute : Nat
  second : Nat
  nanosecond : Nat
  bounds : hour < 24 ∧ minute < 60 ∧ second < 60 ∧ nanosecond < 2000000000
  leap_bounds : 1000000000 ≤ nanosecond → second = 59
deriving DecidableEq, Repr

namespace TimeOfDay

/-- The time with these numbers, if there is one. Second 60 is the leap second. -/
def make? (hour minute second fraction : Nat) : Option TimeOfDay :=
  if regular :
      (hour < 24 ∧ minute < 60 ∧ second < 60 ∧ fraction < 1000000000) then
    some ⟨hour, minute, second, fraction, by omega, by omega⟩
  else if leap : (hour < 24 ∧ minute < 60 ∧ second = 60 ∧ fraction < 1000000000) then
    some ⟨hour, minute, 59, 1000000000 + fraction, by omega, by omega⟩
  else
    none

/-- The second as a clock shows it, 60 in a leap second. -/
def shownSecond (time : TimeOfDay) : Nat :=
  time.second + time.nanosecond / 1000000000

/-- The nanoseconds since the shown second began. -/
def fraction (time : TimeOfDay) : Nat :=
  time.nanosecond % 1000000000

end TimeOfDay

/-- A day and a time of that day. -/
structure DateTime where
  date : Date
  time : TimeOfDay
deriving DecidableEq, Repr

namespace DateTime

/-- Year, month, day, hour, minute, second and nanosecond. -/
def fields (instant : DateTime) : List Int :=
  [instant.date.year, instant.date.month, instant.date.day, instant.time.hour,
    instant.time.minute, instant.time.second, instant.time.nanosecond]

/-- The order in time: by the fields, the coarsest first. -/
def compare (x y : DateTime) : Ordering :=
  Ord.compare x.fields y.fields

/-- The same second without its fraction. -/
def truncate (instant : DateTime) : DateTime where
  date := instant.date
  time :=
    { instant.time with
      nanosecond := instant.time.nanosecond - instant.time.fraction
      bounds := by
        have := instant.time.bounds
        omega
      leap_bounds := by
        have := instant.time.leap_bounds
        omega }

end DateTime

end ObjectQuery
