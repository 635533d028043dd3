import ChangeCapture.Calendar.Date
import Mathlib.Algebra.BigOperators.Group.Finset.Basic
import Mathlib.Tactic.IntervalCases

/-!
# Day numbers count days

The days from 1970-01-01 to a date can be counted: first year by year, then month by
month, then day by day (`Date.elapsed`).  The formulas for day numbers say the same
(`Date.elapsed_eq_dayNumber`, `Date.elapsed_ofDayNumber`).

The formulas count years from March and take 400 of them at a time.  A day of such an era
lies in one of its centuries, cycles of four years and years, and only the last year of a
cycle may have a leap day (`Date.EraDay`).  In these terms all of the formulas are linear.
-/

namespace ChangeCapture

namespace Date

/-! ## Counting -/

/-- The number of days of a year. -/
def yearLength (year : Int) : Int := if isLeap year then 366 else 365

/-- The days of so many years, counted year by year. -/
def daysOfYears (first : Int) (count : Nat) : Int :=
  ∑ k ∈ Finset.range count, yearLength (first + k)

/-- The days from the start of 1970 to the start of a year.  To an earlier year they count
backwards. -/
def daysToYear (year : Int) : Int :=
  daysOfYears 1970 (year - 1970).toNat - daysOfYears year (1970 - year).toNat

/-- The days from the start of a year to the start of a month, counted month by month. -/
def daysToMonth (year : Int) (month : Nat) : Int :=
  ∑ k ∈ Finset.range (month - 1), (daysInMonth year (k + 1) : Int)

/-- The days from 1970-01-01 to a date. -/
def elapsed (d : Date) : Int := daysToYear d.year + daysToMonth d.year d.month + d.day - 1

/-- A date is a day of the calendar. -/
structure IsDay (d : Date) : Prop where
  /-- There is such a month. -/
  month : 1 ≤ d.month ∧ d.month ≤ 12
  /-- The month has such a day. -/
  day : 1 ≤ d.day ∧ d.day ≤ daysInMonth d.year d.month

/-! ## Years and months in closed form -/

theorem isLeap_iff {year : Int} :
    isLeap year ↔ year % 4 = 0 ∧ (year % 100 ≠ 0 ∨ year % 400 = 0) := by
  simp [isLeap]

/-- The number of leap days before a year, up to a constant. -/
def leapDays (year : Int) : Int := (year - 1) / 4 - (year - 1) / 100 + (year - 1) / 400

theorem yearLength_eq (year : Int) :
    yearLength year = 365 + leapDays (year + 1) - leapDays year := by
  simp only [yearLength, isLeap_iff, leapDays]
  split <;> omega

theorem daysOfYears_eq (first : Int) (count : Nat) :
    daysOfYears first count = 365 * count + leapDays (first + count) - leapDays first := by
  induction count with
  | zero => simp [daysOfYears]
  | succ n ih =>
    have last : daysOfYears first (n + 1) = daysOfYears first n + yearLength (first + n) :=
      Finset.sum_range_succ ..
    rw [last, ih, yearLength_eq, Nat.cast_succ, ← Int.add_assoc]
    omega

theorem daysToYear_eq (year : Int) :
    daysToYear year = 365 * (year - 1970) + leapDays year - leapDays 1970 := by
  rw [daysToYear, daysOfYears_eq, daysOfYears_eq]
  rcases Int.le_total 1970 year with h | h
  · have forward : ((year - 1970).toNat : Int) = year - 1970 := by omega
    have back : ((1970 - year).toNat : Int) = 0 := by omega
    have there : 1970 + (year - 1970) = year := by omega
    rw [forward, back, there, Int.add_zero]
    omega
  · have forward : ((year - 1970).toNat : Int) = 0 := by omega
    have back : ((1970 - year).toNat : Int) = 1970 - year := by omega
    have there : year + (1970 - year) = 1970 := by omega
    rw [forward, back, there, Int.add_zero]
    omega

/-- The days before a month are those of January and February, and those from March on. -/
theorem daysToMonth_eq {year : Int} {month : Nat} (h : 1 ≤ month ∧ month ≤ 12) :
    daysToMonth year month =
      if month ≤ 2 then 31 * (month - 1 : Int)
      else 31 + daysInMonth year 2 + daysBeforeMonth (month - 3) := by
  obtain ⟨first, last⟩ := h
  interval_cases month <;>
    simp [daysToMonth, Finset.sum_range_succ, daysInMonth, daysBeforeMonth] <;> omega

theorem daysInMonth_february (year : Int) :
    daysInMonth year 2 = if isLeap year then 29 else 28 := rfl

theorem daysInFebruary (year : Int) :
    (daysInMonth year 2 : Int) = 28 + leapDays (year + 1) - leapDays year := by
  have length := yearLength_eq year
  simp only [yearLength] at length
  rw [daysInMonth_february]
  split at length <;> simp_all <;> omega

/-- The day number of a date is the number of days to it. -/
theorem elapsed_eq_dayNumber {d : Date} (h : 1 ≤ d.month ∧ d.month ≤ 12) :
    d.elapsed = d.dayNumber := by
  have february := daysInFebruary d.year
  have start : leapDays 1970 = 477 := rfl
  rw [elapsed, daysToYear_eq, daysToMonth_eq h, start]
  simp only [leapDays] at february ⊢
  simp only [dayNumber, daysBeforeMonth]
  split <;> omega

/-! ## The days of an era -/

/-- A day of an era: its century, the cycle of four years in it, the year in that, and the day
since the first of March.  The last year of a cycle has a leap day, unless the cycle is the last one
of the first three centuries. -/
structure EraDay (n c q y t : Int) : Prop where
  /-- The day. -/
  day : n = 36524 * c + 1461 * q + 365 * y + t
  /-- The century. -/
  century : 0 ≤ c ∧ c ≤ 3
  /-- The cycle. -/
  cycle : 0 ≤ q ∧ q ≤ 24
  /-- The year of the cycle. -/
  year : 0 ≤ y ∧ y ≤ 3
  /-- The day of the year. -/
  start : 0 ≤ t ∧ t ≤ 365
  /-- The leap day. -/
  leap : t = 365 → y = 3 ∧ (q = 24 → c = 3)

/-- The days of an era.  The fourth century is a day longer than the others, and so is the fourth
year of a cycle. -/
theorem exists_eraDay {n : Int} (h : 0 ≤ n ∧ n < 146097) : ∃ c q y t, EraDay n c q y t := by
  obtain ⟨c, hc⟩ : ∃ c, c = min (n / 36524) 3 := ⟨_, rfl⟩
  obtain ⟨q, hq⟩ : ∃ q, q = (n - 36524 * c) / 1461 := ⟨_, rfl⟩
  obtain ⟨y, hy⟩ : ∃ y, y = min ((n - 36524 * c - 1461 * q) / 365) 3 := ⟨_, rfl⟩
  refine ⟨c, q, y, n - 36524 * c - 1461 * q - 365 * y, ?_, ?_, ?_, ?_, ?_, ?_⟩ <;> omega

namespace EraDay

variable {n c q y t : Int}

/-- The year of the era in which a day lies.  The first correction takes away the leap days, and one
day at most beyond them.  The last two are the century, also on the last day of the era. -/
theorem yearOfEra (h : EraDay n c q y t) :
    (n - n / 1460 + n / 36524 - n / 146096) / 365 = 100 * c + 4 * q + y := by
  obtain ⟨day, century, cycle, year, start, leap⟩ := h
  have centuries : n / 36524 - n / 146096 = c := by
    rcases Int.lt_or_le n 146096 with h | h
    · have none : n / 146096 = 0 := by omega
      omega
    · have last : n = 146096 := by omega
      omega
  have low : n / 1460 ≤ 25 * c + q + t := by omega
  have high : 25 * c + q + t ≤ n / 1460 + 364 := by omega
  omega

/-- The day of the year. -/
theorem dayOfYear (h : EraDay n c q y t) :
    n - (365 * (100 * c + 4 * q + y) + (100 * c + 4 * q + y) / 4 -
      (100 * c + 4 * q + y) / 100) = t := by
  obtain ⟨day, century, cycle, year, start, leap⟩ := h
  omega

/-- A year that has a last day of February in a leap year is one. -/
theorem isLeap_next (h : EraDay n c q y t) (last : t = 365) (era : Int) :
    isLeap (100 * c + 4 * q + y + era * 400 + 1) := by
  obtain ⟨day, century, cycle, year, start, leap⟩ := h
  rw [isLeap_iff]
  omega

end EraDay

/-- A day of a year that starts in March, as a month and a day of it. -/
theorem monthOfDay {t : Int} (h : 0 ≤ t ∧ t ≤ 365) :
    ∃ m : Nat, ((5 * t + 2) / 153).toNat = m ∧ m ≤ 11 ∧
      (daysBeforeMonth m : Int) ≤ t ∧ t < daysBeforeMonth (m + 1) := by
  obtain ⟨m, hm⟩ : ∃ m : Nat, ((5 * t + 2) / 153).toNat = m := ⟨_, rfl⟩
  have month : (5 * t + 2) / 153 = m := by omega
  refine ⟨m, hm, by omega, ?_, ?_⟩ <;> simp only [daysBeforeMonth] <;> omega

/-- The date of a day number, taken apart. -/
theorem ofDayNumber_cases (n : Int) :
    ∃ (era c q y t : Int) (m : Nat), EraDay (n + 719468 - era * 146097) c q y t ∧ m ≤ 11 ∧
      (daysBeforeMonth m : Int) ≤ t ∧ t < daysBeforeMonth (m + 1) ∧
      ofDayNumber n =
        ⟨if m < 10 then 100 * c + 4 * q + y + era * 400 else 100 * c + 4 * q + y + era * 400 + 1,
          (m + 2) % 12 + 1, (t - daysBeforeMonth m + 1).toNat⟩ := by
  obtain ⟨c, q, y, t, eraDay⟩ := exists_eraDay (n := (n + 719468) % 146097) (by omega)
  obtain ⟨m, hm, last, low, high⟩ := monthOfDay eraDay.start
  have rest : (n + 719468) % 146097 = n + 719468 - (n + 719468) / 146097 * 146097 := by omega
  refine ⟨(n + 719468) / 146097, c, q, y, t, m, rest ▸ eraDay, last, low, high, ?_⟩
  have early : (m + 2) % 12 + 1 ≤ 2 ↔ ¬ m < 10 := by omega
  simp only [ofDayNumber, eraDay.yearOfEra, eraDay.dayOfYear, hm, early, ite_not]

/-- The months from March to January have the days that lie between their starts. -/
theorem daysInMonth_fromMarch {m : Nat} (h : m ≤ 10) (year : Int) :
    daysInMonth year ((m + 2) % 12 + 1) = daysBeforeMonth (m + 1) - daysBeforeMonth m := by
  interval_cases m <;> rfl

/-- The date of a day number is a day of the calendar. -/
theorem isDay_ofDayNumber (n : Int) : (ofDayNumber n).IsDay := by
  obtain ⟨era, c, q, y, t, m, eraDay, last, low, high, same⟩ := ofDayNumber_cases n
  rw [same]
  refine ⟨by dsimp only; omega, by dsimp only; omega, ?_⟩
  dsimp only
  rcases Nat.lt_or_eq_of_le last with other | rfl
  · rw [daysInMonth_fromMarch (Nat.le_of_lt_succ other)]
    omega
  · have before : daysBeforeMonth 11 = 337 := rfl
    have start := eraDay.start
    have later : ¬ 11 < 10 := by omega
    rw [show (11 + 2) % 12 + 1 = 2 from rfl, daysInMonth_february, if_neg later, before]
    rcases Int.lt_or_le t 365 with plain | leap
    · split <;> omega
    · rw [if_pos (eraDay.isLeap_next (by omega) era)]
      omega

/-- The day number of the date of a day number. -/
theorem dayNumber_ofDayNumber (n : Int) : (ofDayNumber n).dayNumber = n := by
  obtain ⟨era, c, q, y, t, m, ⟨day, century, cycle, year, start, -⟩, last, low, high, same⟩ :=
    ofDayNumber_cases n
  have marchYear : ∀ z : Int,
      (if (m + 2) % 12 + 1 ≤ 2 then (if m < 10 then z else z + 1) - 1
        else if m < 10 then z else z + 1) = z := by
    intro z
    split <;> split <;> omega
  have fromMarch : ((m + 2) % 12 + 1 + 9) % 12 = m := by omega
  have dayOfMonth : ((t - daysBeforeMonth m + 1).toNat : Int) = t - daysBeforeMonth m + 1 := by
    omega
  rw [same]
  simp only [dayNumber, marchYear, fromMarch, dayOfMonth]
  omega

/-- The date of a day number is that many days from 1970-01-01. -/
theorem elapsed_ofDayNumber (n : Int) : (ofDayNumber n).elapsed = n := by
  rw [elapsed_eq_dayNumber (isDay_ofDayNumber n).month, dayNumber_ofDayNumber]

/-! ## Supported years -/

/-- The first day of the least year that is supported. -/
def firstDay : Date := ⟨minYear, 1, 1⟩

/-- The last day of the greatest year that is supported. -/
def lastDay : Date := ⟨maxYear, 12, 31⟩

theorem daysToYear_succ (year : Int) :
    daysToYear (year + 1) = daysToYear year + yearLength year := by
  rw [daysToYear_eq, daysToYear_eq, yearLength_eq]
  omega

theorem daysToYear_mono {y z : Int} (h : y ≤ z) : daysToYear y ≤ daysToYear z := by
  rw [daysToYear_eq, daysToYear_eq]
  rcases Int.lt_or_eq_of_le h with before | rfl
  · simp only [leapDays]
    omega
  · exact Int.le_refl _

/-- The days to a date lie between those to its year and those to the next. -/
theorem elapsed_bounds {d : Date} (h : d.IsDay) :
    daysToYear d.year ≤ d.elapsed ∧ d.elapsed < daysToYear (d.year + 1) := by
  obtain ⟨year, month, day⟩ := d
  obtain ⟨⟨first, last⟩, least, greatest⟩ := h
  have february := daysInFebruary year
  dsimp only at first last least greatest
  rw [elapsed, daysToYear_succ, daysToMonth_eq ⟨first, last⟩, yearLength_eq]
  dsimp only
  cases leap : isLeap year <;> interval_cases month <;>
    simp [daysInMonth, daysBeforeMonth, leap] at * <;> omega

theorem elapsed_firstDay : firstDay.elapsed = daysToYear minYear := by
  simp [elapsed, firstDay, daysToMonth]

theorem elapsed_lastDay : lastDay.elapsed = daysToYear (maxYear + 1) - 1 := by
  rw [elapsed_eq_dayNumber (by decide), daysToYear_eq]
  rfl

/-- A day number has a date if and only if it lies between those of the first and the last day that
are supported. -/
theorem ofDayNumber?_eq_some_iff {n : Int} {d : Date} :
    ofDayNumber? n = some d ↔
      (firstDay.elapsed ≤ n ∧ n ≤ lastDay.elapsed) ∧ ofDayNumber n = d := by
  have bounds := elapsed_bounds (isDay_ofDayNumber n)
  rw [elapsed_ofDayNumber] at bounds
  have supported : (minYear ≤ (ofDayNumber n).year ∧ (ofDayNumber n).year ≤ maxYear) ↔
      firstDay.elapsed ≤ n ∧ n ≤ lastDay.elapsed := by
    rw [elapsed_firstDay, elapsed_lastDay]
    constructor
    · intro ⟨least, greatest⟩
      have first := daysToYear_mono least
      have last := daysToYear_mono (Int.add_le_add_right greatest 1)
      omega
    · intro ⟨least, greatest⟩
      constructor
      · by_contra early
        have first := daysToYear_mono (Int.add_one_le_of_lt (Int.not_le.1 early))
        omega
      · by_contra late
        have last := daysToYear_mono (Int.add_one_le_of_lt (Int.not_le.1 late))
        omega
  simp only [ofDayNumber?]
  split
  · rename_i h
    simp [supported.1 h]
  · rename_i h
    simp [mt supported.2 h]

end Date

end ChangeCapture
