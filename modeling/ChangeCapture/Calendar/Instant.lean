import ChangeCapture.Calendar.Date

/-!
# Instants and their texts

An instant is a number of microseconds since 1970-01-01T00:00:00Z.  A year from
0 to 9999 is written with four digits.  Any other year carries a sign.
-/

namespace ChangeCapture

namespace Calendar

/-- The microseconds of a day. -/
def microsPerDay : Int := 86400000000

/-- A number in decimal, with zeros in front up to a width. -/
def padded (width n : Nat) : List Char :=
  let ds := Nat.toDigits 10 n
  List.replicate (width - ds.length) '0' ++ ds

/-- A year. -/
def yearText (year : Int) : List Char :=
  if 0 ≤ year ∧ year ≤ 9999 then padded 4 year.natAbs
  else (if year < 0 then '-' else '+') :: padded 4 year.natAbs

/-- A date, as year, month and day. -/
def dateText (d : Date) : List Char :=
  yearText d.year ++ '-' :: padded 2 d.month ++ '-' :: padded 2 d.day

/-- How many digits of a second's fraction are written. -/
inductive Precision where
  /-- Three digits. -/
  | millis
  /-- Six digits. -/
  | micros
  deriving DecidableEq, Repr

/-- A time of day in microseconds, as hours, minutes, seconds and a fraction. -/
def timeText (p : Precision) (micros : Nat) : List Char :=
  let seconds := micros / 1000000
  let fraction := micros % 1000000
  padded 2 (seconds / 3600) ++ ':' :: padded 2 (seconds / 60 % 60) ++ ':' :: padded 2 (seconds % 60)
    ++ '.' :: (match p with
      | .millis => padded 3 (fraction / 1000)
      | .micros => padded 6 fraction)

/-- A date and a time of day with a `T` between them. -/
def timestampText (p : Precision) (d : Date) (micros : Nat) : List Char :=
  dateText d ++ 'T' :: timeText p micros

/-- The date and the time of day of an instant, if its year is supported. -/
def split? (micros : Int) : Option (Date × Nat) :=
  (Date.ofDayNumber? (micros / microsPerDay)).map fun d => (d, (micros % microsPerDay).toNat)

end Calendar

/-- A point in time, in microseconds since 1970-01-01T00:00:00Z. -/
structure Instant where
  /-- The microseconds since then. -/
  micros : Int
  deriving DecidableEq, Repr, Inhabited

namespace Instant

/-- The instant of a number of milliseconds. -/
def ofMillis (ms : Int) : Instant := ⟨ms * 1000⟩

/-- The whole milliseconds since 1970. -/
def millis (t : Instant) : Int := t.micros / 1000

/-- The instant that is this many milliseconds later. -/
def later (t : Instant) (ms : Nat) : Instant := ⟨t.micros + ms * 1000⟩

/-- Whether the year of an instant is supported. -/
def isSupported (t : Instant) : Bool := (Calendar.split? t.micros).isSome

/-- The instant in RFC 3339, with microseconds and in UTC. -/
def toRfc3339 (t : Instant) : String :=
  match Calendar.split? t.micros with
  | some (d, time) => String.ofList (Calendar.timestampText .micros d time ++ ['Z'])
  | none => ""

end Instant

end ChangeCapture
