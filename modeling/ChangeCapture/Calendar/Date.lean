/-!
# Dates

Days are counted from 1970-01-01 in the proleptic Gregorian calendar.
`Date.ofDayNumber` and `Date.dayNumber` convert between a day number and its
year, month and day.  A calendar year is counted from its first of March, so
that the leap day is the last day of the year.
-/

namespace ChangeCapture

/-- A date of the proleptic Gregorian calendar. -/
structure Date where
  /-- The year, in which zero precedes one. -/
  year : Int
  /-- The month, from 1 to 12. -/
  month : Nat
  /-- The day, from 1. -/
  day : Nat
  deriving DecidableEq, Repr

namespace Date

/-- Whether a year has a leap day. -/
def isLeap (year : Int) : Bool := year % 4 == 0 && (year % 100 != 0 || year % 400 == 0)

/-- The number of days of a month. -/
def daysInMonth (year : Int) (month : Nat) : Nat :=
  if month = 2 then (if isLeap year then 29 else 28)
  else if month = 4 ∨ month = 6 ∨ month = 9 ∨ month = 11 then 30
  else 31

/-- The least year that is supported. -/
def minYear : Int := -262143

/-- The greatest year that is supported. -/
def maxYear : Int := 262142

/-- The date of a year, a month and a day, if there is one. -/
def ofParts? (year : Int) (month day : Nat) : Option Date :=
  if minYear ≤ year ∧ year ≤ maxYear ∧ 1 ≤ month ∧ month ≤ 12 ∧ 1 ≤ day ∧
      day ≤ daysInMonth year month then
    some ⟨year, month, day⟩
  else none

/-- The days of the months from March on that precede a month, which is counted from March. -/
def daysBeforeMonth (fromMarch : Nat) : Nat := (153 * fromMarch + 2) / 5

/-- The number of days from 1970-01-01 to a date. -/
def dayNumber (d : Date) : Int :=
  let year := if d.month ≤ 2 then d.year - 1 else d.year
  let era := year / 400
  let yearOfEra := year % 400
  let fromMarch := (d.month + 9) % 12
  let dayOfYear : Int := daysBeforeMonth fromMarch + d.day - 1
  let dayOfEra := yearOfEra * 365 + yearOfEra / 4 - yearOfEra / 100 + dayOfYear
  era * 146097 + dayOfEra - 719468

/-- The date of a day number. -/
def ofDayNumber (n : Int) : Date :=
  let shifted := n + 719468
  let era := shifted / 146097
  let dayOfEra := shifted % 146097
  let yearOfEra := (dayOfEra - dayOfEra / 1460 + dayOfEra / 36524 - dayOfEra / 146096) / 365
  let dayOfYear := dayOfEra - (365 * yearOfEra + yearOfEra / 4 - yearOfEra / 100)
  let fromMarch := ((5 * dayOfYear + 2) / 153).toNat
  let day := (dayOfYear - daysBeforeMonth fromMarch + 1).toNat
  let month := (fromMarch + 2) % 12 + 1
  let year := yearOfEra + era * 400
  ⟨if month ≤ 2 then year + 1 else year, month, day⟩

/-- The date of a day number, if its year is supported. -/
def ofDayNumber? (n : Int) : Option Date :=
  let d := ofDayNumber n
  if minYear ≤ d.year ∧ d.year ≤ maxYear then some d else none

end Date

end ChangeCapture
