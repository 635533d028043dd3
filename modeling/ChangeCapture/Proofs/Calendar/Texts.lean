import ChangeCapture.Column.Inference
import ChangeCapture.Proofs.Calendar.Date
import ChangeCapture.Proofs.Calendar.Numerals
import Mathlib.Data.Rat.Defs
import Mathlib.Tactic.FieldSimp
import Mathlib.Tactic.Ring

/-!
# Dates and times are read back

Each lenient reader takes what is written and leaves what follows it
(`Calendar.lenientDate_append`, `Calendar.lenientTime_append`).  These readers only tell
whether there is a time of day.  Which one it is, in seconds, is told by
`Calendar.clock`, and `Calendar.clock_append` says that it is the one that was written.

The readers are tried in an order: a timestamp with an offset, one without, a date, a time
of day.  None of them takes a text that is written for a later one
(`ColumnKind.ofText_dateText`, `ColumnKind.ofText_timeText`,
`ColumnKind.ofText_timestampText`).
-/

namespace ChangeCapture

namespace Date

/-- A day of a year that is supported. -/
structure IsSupported (d : Date) : Prop where
  /-- It is a day. -/
  isDay : d.IsDay
  /-- The year is supported. -/
  year : minYear ≤ d.year ∧ d.year ≤ maxYear

theorem ofParts?_self {d : Date} (h : d.IsSupported) :
    ofParts? d.year d.month d.day = some d := by
  obtain ⟨⟨⟨jan, dec⟩, first, last⟩, least, greatest⟩ := h
  simp [ofParts?, jan, dec, first, last, least, greatest]

/-- A day number between the first and the last day has a date, which is that many days from
1970-01-01, and any other has none. -/
theorem ofDayNumber?_cases (n : Int) :
    (∃ d : Date, d.IsSupported ∧ d.elapsed = n ∧ ofDayNumber? n = some d ∧
      firstDay.elapsed ≤ n ∧ n ≤ lastDay.elapsed) ∨
    (ofDayNumber? n = none ∧ ¬ (firstDay.elapsed ≤ n ∧ n ≤ lastDay.elapsed)) := by
  cases h : ofDayNumber? n with
  | none =>
    refine .inr ⟨rfl, fun within => ?_⟩
    have there := ofDayNumber?_eq_some_iff.2 ⟨within, rfl⟩
    rw [h] at there
    cases there
  | some d =>
    obtain ⟨within, date⟩ := ofDayNumber?_eq_some_iff.1 h
    refine .inl ⟨d, ⟨date ▸ isDay_ofDayNumber n, ?_⟩, date ▸ elapsed_ofDayNumber n, rfl, within⟩
    simp only [ofDayNumber?, date] at h
    by_contra far
    rw [if_neg far] at h
    cases h

end Date

namespace Calendar

variable {rest : List Char}

/-! ## Pairs of digits -/

theorem length_padded_two {n : Nat} (h : n < 100) : (padded 2 n).length = 2 :=
  length_padded_of_lt (by decide) h

theorem number_padded {n : Nat} (h : n < 100) (rest : List Char) :
    number 2 2 (padded 2 n ++ rest) = some (n, rest) := by
  have length := length_padded_two h
  rw [number_append (allDigits_padded 2 n) (.inl length) (by omega), valueOf_padded]

theorem lenientPair_append {low high n : Nat} (h : low ≤ n ∧ n ≤ high) (two : high < 100)
    (rest : List Char) : lenientPair low high (padded 2 n ++ rest) = some (n, rest) := by
  have length := length_padded_two (show n < 100 by omega)
  rw [lenientPair, trimStart_append (allDigits_padded 2 n) (padded_ne_nil 2 n), bounded,
    number_append (allDigits_padded 2 n) (.inl length) (by omega), valueOf_padded]
  exact if_pos h

@[simp]
theorem literal_cons (c : Char) (cs : List Char) : literal c (c :: cs) = some cs :=
  if_pos rfl

theorem literal_cons_of_ne {c c' : Char} (h : c' ≠ c) (cs : List Char) :
    literal c (c' :: cs) = none :=
  if_neg h

/-! ## Dates -/

/-- A year without a sign is at most four digits. -/
theorem lenientYear_of_digits {ds : List Char} (digits : AllDigits ds) (there : ds ≠ [])
    (rest : List Char) :
    lenientYear (ds ++ rest) = (number 1 4 (ds ++ rest)).map fun (n, cs) => ((n : Int), cs) := by
  rw [lenientYear, trimStart_append digits there]
  split
  · rename_i same
    exact absurd same (digits.append_ne_cons there rfl _ _)
  · rename_i same
    exact absurd same (digits.append_ne_cons there rfl _ _)
  · rfl

/-- A year of four digits is written without a sign, and any other with one. -/
theorem yearText_cases (year : Int) :
    (0 ≤ year ∧ year.natAbs < 10 ^ 4 ∧ yearText year = padded 4 year.natAbs) ∨
    (year < 0 ∧ yearText year = '-' :: padded 4 year.natAbs) ∨
    (9999 < year ∧ yearText year = '+' :: padded 4 year.natAbs) := by
  rw [yearText]
  split
  · rename_i four
    exact .inl ⟨four.1, by omega, rfl⟩
  · rename_i other
    split
    · rename_i negative
      exact .inr (.inl ⟨negative, rfl⟩)
    · exact .inr (.inr ⟨by omega, rfl⟩)

theorem lenientYear_append (year : Int) (stop : NoDigitNext rest) :
    lenientYear (yearText year ++ rest) = some (year, rest) := by
  have digits := allDigits_padded 4 year.natAbs
  have there := padded_ne_nil 4 year.natAbs
  rcases yearText_cases year with ⟨nonnegative, four, text⟩ | ⟨negative, text⟩ | ⟨late, text⟩
  · have length := length_padded_of_lt (by decide) four
    have same : (year.natAbs : Int) = year := by omega
    rw [text, lenientYear_of_digits digits there, number_append digits (.inl length) (by omega),
      valueOf_padded]
    exact congrArg (fun y => some (y, rest)) same
  · have same : -(year.natAbs : Int) = year := by omega
    rw [text]
    show (anyNumber (padded 4 year.natAbs ++ rest)).map _ = _
    rw [anyNumber_append digits there stop, valueOf_padded]
    exact congrArg (fun y => some (y, rest)) same
  · have same : (year.natAbs : Int) = year := by omega
    rw [text]
    show (anyNumber (padded 4 year.natAbs ++ rest)).map _ = _
    rw [anyNumber_append digits there stop, valueOf_padded]
    exact congrArg (fun y => some (y, rest)) same

theorem dateText_append (d : Date) (rest : List Char) :
    dateText d ++ rest =
      yearText d.year ++ '-' :: (padded 2 d.month ++ '-' :: (padded 2 d.day ++ rest)) := by
  simp [dateText]

theorem day_le_31 {d : Date} (h : d.IsDay) : 1 ≤ d.day ∧ d.day ≤ 31 := by
  have few : Date.daysInMonth d.year d.month ≤ 31 := by
    rw [Date.daysInMonth]
    split
    · split <;> decide
    · split <;> decide
  exact ⟨h.day.1, h.day.2.trans few⟩

/-- A date is read back. -/
theorem lenientDate_append {d : Date} (h : d.IsSupported) (rest : List Char) :
    lenientDate (dateText d ++ rest) = some (d, rest) := by
  have day := day_le_31 h.isDay
  rw [dateText_append, lenientDate]
  simp only [lenientYear_append d.year (noDigitNext_cons (c := '-') rfl _), Option.bind_eq_bind,
    Option.bind_some, literal_cons, lenientPair_append h.isDay.month (by decide : 12 < 100),
    lenientPair_append day (by decide : 31 < 100), Date.ofParts?_self h]

/-! ## Times of day -/

/-- The digits of a second's fraction. -/
def fractionText (p : Precision) (micros : Nat) : List Char :=
  match p with
  | .millis => padded 3 (micros % 1000000 / 1000)
  | .micros => padded 6 (micros % 1000000)

theorem allDigits_fractionText (p : Precision) (micros : Nat) :
    AllDigits (fractionText p micros) := by
  cases p <;> exact allDigits_padded _ _

theorem fractionText_ne_nil (p : Precision) (micros : Nat) : fractionText p micros ≠ [] := by
  cases p <;> exact padded_ne_nil _ _

theorem timeText_append (p : Precision) (micros : Nat) (rest : List Char) :
    timeText p micros ++ rest =
      padded 2 (micros / 1000000 / 3600) ++ ':' :: (padded 2 (micros / 1000000 / 60 % 60) ++
        ':' :: (padded 2 (micros / 1000000 % 60) ++ '.' :: (fractionText p micros ++ rest))) := by
  simp only [timeText, List.append_assoc, List.cons_append]
  cases p <;> rfl

/-- The hours, minutes and seconds of a day are in their ranges. -/
theorem parts_le {micros : Nat} (h : micros < 86400000000) :
    (0 ≤ micros / 1000000 / 3600 ∧ micros / 1000000 / 3600 ≤ 23) ∧
      (0 ≤ micros / 1000000 / 60 % 60 ∧ micros / 1000000 / 60 % 60 ≤ 59) ∧
        0 ≤ micros / 1000000 % 60 ∧ micros / 1000000 % 60 ≤ 60 := by
  omega

theorem optionalFraction_append (p : Precision) (micros : Nat) (stop : NoDigitNext rest) :
    optionalFraction ('.' :: (fractionText p micros ++ rest)) = some rest := by
  rw [optionalFraction, fractionDigits, anyNumber_append (allDigits_fractionText p micros)
    (fractionText_ne_nil p micros) stop]
  rfl

/-- A time of day is read back. -/
theorem lenientTime_append (p : Precision) {micros : Nat} (h : micros < 86400000000)
    (stop : NoDigitNext rest) :
    lenientTime (timeText p micros ++ rest) =
      some ((micros / 1000000 / 3600, micros / 1000000 / 60 % 60, micros / 1000000 % 60),
        rest) := by
  obtain ⟨hours, minutes, seconds⟩ := parts_le h
  rw [timeText_append, lenientTime]
  simp only [lenientPair_append hours (by decide : 23 < 100), Option.bind_eq_bind,
    Option.bind_some, literal_cons, lenientPair_append minutes (by decide : 59 < 100),
    lenientPair_append seconds (by decide : 60 < 100), optionalFraction_append p micros stop]

/-- Reads a time of day with a fraction of any number of digits, in seconds. -/
def clock : Step ℚ := fun cs => do
  let (hours, cs) ← number 2 2 cs
  let cs ← literal ':' cs
  let (minutes, cs) ← number 2 2 cs
  let cs ← literal ':' cs
  let (seconds, cs) ← number 2 2 cs
  let cs ← literal '.' cs
  let (ds, cs) := cs.span Char.isDigit
  some (hours * 3600 + minutes * 60 + seconds + valueOf ds / 10 ^ ds.length, cs)

/-- The microseconds that are written. -/
def Precision.written : Precision → Nat → Nat
  | .millis, n => n / 1000 * 1000
  | .micros, n => n

theorem valueOf_fractionText (p : Precision) (micros : Nat) :
    (valueOf (fractionText p micros) : ℚ) / 10 ^ (fractionText p micros).length =
      (p.written micros % 1000000 : Nat) / 1000000 := by
  cases p with
  | millis =>
    have length : (padded 3 (micros % 1000000 / 1000)).length = 3 :=
      length_padded_of_lt (by decide) (by omega)
    have same : micros / 1000 * 1000 % 1000000 = micros % 1000000 / 1000 * 1000 := by omega
    rw [fractionText, valueOf_padded, length, Precision.written, same]
    push_cast
    ring
  | micros =>
    have length : (padded 6 (micros % 1000000)).length = 6 :=
      length_padded_of_lt (by decide) (by omega)
    rw [fractionText, valueOf_padded, length, Precision.written]
    norm_num

/-- The time of day that was written, as far as it was. -/
theorem clock_append (p : Precision) {micros : Nat} (h : micros < 86400000000)
    (stop : NoDigitNext rest) :
    clock (timeText p micros ++ rest) = some ((p.written micros : ℚ) / 1000000, rest) := by
  obtain ⟨hours, -⟩ := parts_le h
  have value : (p.written micros : ℚ) =
      ((micros / 1000000 / 3600 : Nat) * 3600 + (micros / 1000000 / 60 % 60 : Nat) * 60 +
        (micros / 1000000 % 60 : Nat)) * 1000000 + (p.written micros % 1000000 : Nat) := by
    have parts : p.written micros = (micros / 1000000 / 3600 * 3600 +
        micros / 1000000 / 60 % 60 * 60 + micros / 1000000 % 60) * 1000000 +
          p.written micros % 1000000 := by
      cases p <;> simp only [Precision.written] <;> omega
    exact_mod_cast parts
  rw [timeText_append, clock]
  simp only [number_padded (show micros / 1000000 / 3600 < 100 by omega), Option.bind_eq_bind,
    Option.bind_some, literal_cons, number_padded (show micros / 1000000 / 60 % 60 < 100 by omega),
    number_padded (show micros / 1000000 % 60 < 100 by omega),
    span_append (allDigits_fractionText p micros) stop, valueOf_fractionText]
  rw [value]
  congr 2
  ring

/-! ## Whole texts -/

/-- Reads a date, in days since 1970. -/
def days : Step ℚ := fun cs => (lenientDate cs).map fun (d, cs) => ((d.elapsed : ℚ), cs)

/-- Reads a date and a time of day, in seconds since 1970. -/
def seconds : Step ℚ := fun cs => do
  let (day, cs) ← days cs
  let cs ← literal 'T' cs
  let (time, cs) ← clock cs
  some (day * 86400 + time, cs)

/-- What a step reads of a whole text. -/
def readWhole? (step : Step ℚ) (cs : List Char) : Option ℚ :=
  match step cs with
  | some (x, []) => some x
  | _ => none

/-- A number of microseconds is written in full: with milliseconds, it is a number of them. -/
def Precision.Fits (p : Precision) (micros : Int) : Prop := p = .millis → micros % 1000 = 0

theorem Precision.written_eq {p : Precision} {n : Nat} (h : p.Fits n) : p.written n = n := by
  cases p with
  | millis =>
    have thousand := h rfl
    simp only [written]
    omega
  | micros => rfl

theorem days_append {d : Date} (h : d.IsSupported) (rest : List Char) :
    days (dateText d ++ rest) = some ((d.elapsed : ℚ), rest) := by
  rw [days, lenientDate_append h]
  rfl

theorem readWhole?_dateText {d : Date} (h : d.IsSupported) :
    readWhole? days (dateText d) = some (d.elapsed : ℚ) := by
  have read := days_append h []
  rw [List.append_nil] at read
  rw [readWhole?, read]

theorem readWhole?_timeText {p : Precision} {micros : Nat} (h : micros < 86400000000)
    (fits : p.Fits micros) :
    readWhole? clock (timeText p micros) = some ((micros : ℚ) / 1000000) := by
  have read := clock_append p h noDigitNext_nil
  rw [List.append_nil, Precision.written_eq fits] at read
  rw [readWhole?, read]

theorem readWhole?_timestampText {d : Date} (h : d.IsSupported) {p : Precision} {micros : Nat}
    (time : micros < 86400000000) (fits : p.Fits micros) :
    readWhole? seconds (timestampText p d micros) =
      some (d.elapsed * 86400 + (micros : ℚ) / 1000000) := by
  have read := clock_append p time noDigitNext_nil
  rw [List.append_nil, Precision.written_eq fits] at read
  simp only [readWhole?, seconds, timestampText, days_append h, literal_cons, Option.bind_eq_bind,
    Option.bind_some, read]

/-! ## RFC 3339 -/

theorem bounded_number_padded {low high n : Nat} (h : low ≤ n ∧ n ≤ high) (two : high < 100)
    (rest : List Char) : bounded low high (number 2 2) (padded 2 n ++ rest) = some (n, rest) := by
  rw [bounded, number_padded (show n < 100 by omega)]
  exact if_pos h

/-- A year is read as one of RFC 3339 if it has four digits. -/
theorem number_yearText (year : Int) :
    (∀ rest, number 4 4 (yearText year ++ rest) = none) ∨
      ∀ rest, number 4 4 (yearText year ++ rest) = some (year.natAbs, rest) := by
  rcases yearText_cases year with ⟨-, four, text⟩ | ⟨-, text⟩ | ⟨-, text⟩ <;> rw [text]
  · have length := length_padded_of_lt (by decide) four
    right
    intro rest
    rw [number_append (allDigits_padded 4 year.natAbs) (.inl length) (by omega), valueOf_padded]
  · exact .inl fun rest => number_eq_none (by decide) (noDigitNext_cons rfl _)
  · exact .inl fun rest => number_eq_none (by decide) (noDigitNext_cons rfl _)

/-- A date alone has no time of day. -/
theorem isRfc3339_dateText {d : Date} (h : d.IsSupported) : isRfc3339 (dateText d) = false := by
  have month := h.isDay.month
  have day := day_le_31 h.isDay
  rw [← List.append_nil (dateText d), dateText_append, isRfc3339]
  rcases number_yearText d.year with signed | four
  · simp only [signed, Option.bind_eq_bind, Option.bind_none, Option.isSome_none]
  · simp only [four, Option.bind_eq_bind, Option.bind_some, literal_cons,
      number_padded (show d.month < 100 by omega), number_padded (show d.day < 100 by omega),
      separator, Option.bind_none, Option.isSome_none]

/-- A time of day does not start with a year. -/
theorem isRfc3339_timeText (p : Precision) {micros : Nat} (h : micros < 86400000000) :
    isRfc3339 (timeText p micros) = false := by
  obtain ⟨hours, -⟩ := parts_le h
  have length := length_padded_two (show micros / 1000000 / 3600 < 100 by omega)
  have digits := allDigits_padded 2 (micros / 1000000 / 3600)
  rw [← List.append_nil (timeText p micros), timeText_append, isRfc3339]
  have short : ∀ cs, number 4 4 (padded 2 (micros / 1000000 / 3600) ++ ':' :: cs) = none := by
    intro cs
    have taken := takeDigits_append digits (n := 4)
      (.inr ⟨by omega, noDigitNext_cons (c := ':') rfl cs⟩)
    simp only [number, taken, length]
    rfl
  simp only [short, Option.bind_eq_bind, Option.bind_none, Option.isSome_none]

/-- A timestamp has no offset. -/
theorem isRfc3339_timestampText {d : Date} (h : d.IsSupported) (p : Precision) {micros : Nat}
    (time : micros < 86400000000) : isRfc3339 (timestampText p d micros) = false := by
  have month := h.isDay.month
  have day := day_le_31 h.isDay
  obtain ⟨hours, minutes, seconds⟩ := parts_le time
  rw [timestampText, dateText_append, ← List.append_nil (timeText p micros), timeText_append,
    isRfc3339]
  rcases number_yearText d.year with signed | four
  · simp only [signed, Option.bind_eq_bind, Option.bind_none, Option.isSome_none]
  · simp only [four, Option.bind_eq_bind, Option.bind_some, literal_cons,
      number_padded (show d.month < 100 by omega), number_padded (show d.day < 100 by omega),
      separator, true_or, if_true, bounded_number_padded hours (by decide : 23 < 100),
      bounded_number_padded minutes (by decide : 59 < 100),
      bounded_number_padded seconds (by decide : 60 < 100),
      optionalFraction_append p micros noDigitNext_nil, offset, Option.bind_none,
      Option.isSome_none]

/-! ## The order of the readers -/

theorem isDate_dateText {d : Date} (h : d.IsSupported) : isDate (dateText d) = true := by
  have read := lenientDate_append h []
  rw [List.append_nil] at read
  simp [isDate, readsAll, read]

theorem isTime_timeText (p : Precision) {micros : Nat} (h : micros < 86400000000) :
    isTime (timeText p micros) = true := by
  have read := lenientTime_append p h noDigitNext_nil
  rw [List.append_nil] at read
  simp [isTime, readsAll, read]

theorem isLocalTimestamp_timestampText {d : Date} (h : d.IsSupported) (p : Precision)
    {micros : Nat} (time : micros < 86400000000) :
    isLocalTimestamp (timestampText p d micros) = true := by
  have read := lenientTime_append p time noDigitNext_nil
  rw [List.append_nil] at read
  simp [isLocalTimestamp, readsAll, joinedByT, timestampText, lenientDate_append h, read]

theorem isLocalTimestamp_dateText {d : Date} (h : d.IsSupported) :
    isLocalTimestamp (dateText d) = false := by
  have read := lenientDate_append h []
  rw [List.append_nil] at read
  have nothing : lenientTime [] = none := rfl
  simp [isLocalTimestamp, readsAll, joinedByT, joinedByBlank, read, literal, Unicode.trimStart,
    nothing]

/-- A time of day does not start with a date. -/
theorem lenientDate_timeText (p : Precision) {micros : Nat} (h : micros < 86400000000) :
    lenientDate (timeText p micros) = none := by
  obtain ⟨hours, -⟩ := parts_le h
  have length := length_padded_two (show micros / 1000000 / 3600 < 100 by omega)
  have digits := allDigits_padded 2 (micros / 1000000 / 3600)
  rw [← List.append_nil (timeText p micros), timeText_append, lenientDate]
  have colon : ∀ cs, lenientYear (padded 2 (micros / 1000000 / 3600) ++ ':' :: cs) =
      some (((micros / 1000000 / 3600 : Nat) : Int), ':' :: cs) := by
    intro cs
    rw [lenientYear_of_digits digits (padded_ne_nil _ _), number_append digits
      (.inr ⟨by omega, noDigitNext_cons rfl cs⟩) (by omega), valueOf_padded]
    rfl
  simp only [colon, Option.bind_eq_bind, Option.bind_some,
    literal_cons_of_ne (show ':' ≠ '-' by decide), Option.bind_none]

theorem isLocalTimestamp_timeText (p : Precision) {micros : Nat} (h : micros < 86400000000) :
    isLocalTimestamp (timeText p micros) = false := by
  simp [isLocalTimestamp, readsAll, joinedByT, joinedByBlank, lenientDate_timeText p h]

theorem isDate_timeText (p : Precision) {micros : Nat} (h : micros < 86400000000) :
    isDate (timeText p micros) = false := by
  simp [isDate, readsAll, lenientDate_timeText p h]

end Calendar

namespace TimeKind

open Calendar

/-- A date is taken for a date. -/
theorem ofText?_dateText {d : Date} (h : d.IsSupported) :
    ofText? (String.ofList (dateText d)) = some .date := by
  simp [ofText?, isRfc3339_dateText h, isLocalTimestamp_dateText h, isDate_dateText h]

/-- A time of day is taken for one. -/
theorem ofText?_timeText (p : Precision) {micros : Nat} (h : micros < 86400000000) :
    ofText? (String.ofList (timeText p micros)) = some .time := by
  simp [ofText?, isRfc3339_timeText p h, isLocalTimestamp_timeText p h, isDate_timeText p h,
    isTime_timeText p h]

/-- A timestamp is taken for one without an offset. -/
theorem ofText?_timestampText {d : Date} (h : d.IsSupported) (p : Precision) {micros : Nat}
    (time : micros < 86400000000) :
    ofText? (String.ofList (timestampText p d micros)) = some .timestampNtz := by
  simp [ofText?, isRfc3339_timestampText h p time, isLocalTimestamp_timestampText h p time]

end TimeKind

namespace ColumnKind

open Calendar

/-- A text with a colon or a hyphen that is taken for a date or a time has this kind. -/
theorem ofText_of_timeKind {cs : List Char} {kind : TimeKind}
    (mark : ':' ∈ cs ∨ '-' ∈ cs) (h : TimeKind.ofText? (String.ofList cs) = some kind) :
    ofText (String.ofList cs) = .extendedTime kind := by
  have marked : (String.ofList cs).toList.any (fun c => c == ':' || c == '-') = true := by
    rw [String.toList_ofList, List.any_eq_true]
    rcases mark with colon | hyphen
    · exact ⟨':', colon, rfl⟩
    · exact ⟨'-', hyphen, rfl⟩
  simp only [ofText, marked, if_true, h]

theorem hyphen_mem_dateText (d : Date) : '-' ∈ dateText d := by simp [dateText]

theorem colon_mem_timeText (p : Precision) (micros : Nat) : ':' ∈ timeText p micros := by
  simp [timeText]

/-- A date has the kind of dates. -/
theorem ofText_dateText {d : Date} (h : d.IsSupported) :
    ofText (String.ofList (dateText d)) = .extendedTime .date :=
  ofText_of_timeKind (.inr (hyphen_mem_dateText d)) (TimeKind.ofText?_dateText h)

/-- A time of day has the kind of times of day. -/
theorem ofText_timeText (p : Precision) {micros : Nat} (h : micros < 86400000000) :
    ofText (String.ofList (timeText p micros)) = .extendedTime .time :=
  ofText_of_timeKind (.inl (colon_mem_timeText p micros)) (TimeKind.ofText?_timeText p h)

/-- A timestamp has the kind of timestamps without an offset. -/
theorem ofText_timestampText {d : Date} (h : d.IsSupported) (p : Precision) {micros : Nat}
    (time : micros < 86400000000) :
    ofText (String.ofList (timestampText p d micros)) = .extendedTime .timestampNtz :=
  ofText_of_timeKind (.inr (List.mem_append_left _ (hyphen_mem_dateText d)))
    (TimeKind.ofText?_timestampText h p time)

end ColumnKind

end ChangeCapture
