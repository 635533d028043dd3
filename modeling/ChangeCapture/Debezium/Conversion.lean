import ChangeCapture.Binary64.Decimal
import ChangeCapture.Calendar.Instant
import ChangeCapture.Debezium.Field
import ChangeCapture.Row
import ChangeCapture.Text.Base64

/-!
# Conversion of values

The values of a row in the form that their fields stand for: counts of days or
of time units become dates and times, bytes become decimal numbers.  A value
that does not fit its field stays as it is.

A decimal number is padded to one digit more than its places before the point
is put in, and padding has a widest form.  A number with more places than that
allows brings the conversion of its row down (`breaksRow`).
-/

namespace ChangeCapture.Debezium

/-- An integer brought into 64 bits. -/
def clamp64 (n : Int) : Int := max (-0x8000000000000000) (min n 0x7fffffffffffffff)

/-- The integer next to a numeral in the direction of zero, within 64 bits. -/
def wholePart : Binary64.Numeral → Int
  | .finite x => clamp64 x.truncate
  | .infinite negative => if negative then -0x8000000000000000 else 0x7fffffffffffffff
  | .nan => 0

/-- A count of days or of time units. -/
def count? : Json → Option Int
  | .int n => some (clamp64 n)
  | .float x => some (clamp64 x.truncate)
  | .string s => (Binary64.readNumeral s).map wholePart
  | _ => none

/-! ## Dates and times -/

/-- The date of a number of days since 1970. -/
def dateOfDays? (days : Int) : Option String :=
  (Date.ofDayNumber? days).map fun d => String.ofList (Calendar.dateText d)

/-- The time of day of a number of microseconds since midnight. -/
def timeOfDay? (p : Calendar.Precision) (micros : Int) : Option String :=
  if 0 ≤ micros ∧ micros < Calendar.microsPerDay then
    some (String.ofList (Calendar.timeText p micros.toNat))
  else none

/-- The timestamp of a number of microseconds since 1970. -/
def timestamp? (p : Calendar.Precision) (micros : Int) : Option String :=
  (Calendar.split? micros).map fun (d, time) => String.ofList (Calendar.timestampText p d time)

/-! ## Decimal numbers -/

/-- The longest decimal number in bytes. -/
def maxDecimalBytes : Nat := 16

/-- The most characters that a number can be padded to. -/
def maxPadding : Nat := 65535

/-- The integer of bytes in two's complement, the most significant first. -/
def signedOfBytes (bytes : List UInt8) : Int :=
  let n : Nat := bytes.foldl (fun n b => 256 * n + b.toNat) 0
  match bytes with
  | b :: _ => if 128 ≤ b.toNat then n - (1 <<< (8 * bytes.length) : Nat) else n
  | [] => n

/-- A decimal number of so many units of the last of `scale` places. -/
def decimalText (units : Int) (scale : Nat) : String :=
  let sign := if units < 0 then ['-'] else []
  let digits := Nat.toDigits 10 units.natAbs
  if scale = 0 then String.ofList (sign ++ digits)
  else
    let padded := List.replicate (scale + 1 - digits.length) '0' ++ digits
    let whole := padded.length - scale
    String.ofList (sign ++ padded.take whole ++ '.' :: padded.drop whole)

/-- The units of the decimal number that a text encodes in base 64. -/
def units? (encoded : String) : Option Int := do
  let bytes ← Base64.decode? encoded.toList
  if bytes.length ≤ maxDecimalBytes then some (signedOfBytes bytes) else none

/-- The decimal number that a text encodes in base 64, if it has few enough places to be written. -/
def decimal? (scale : Nat) (encoded : String) : Option String := do
  let units ← units? encoded
  if scale < maxPadding then some (decimalText units scale) else none

/-! ## Rows -/

/-- The value of a field in the form it stands for, if that is another one. -/
def converted? (f : Field) (v : Json) : Option Json :=
  match f.logicalType with
  | some .date => do some (.string (← dateOfDays? (← count? v)))
  | some .time => do some (.string (← timeOfDay? .millis (clamp64 ((← count? v) * 1000))))
  | some .microTime => do some (.string (← timeOfDay? .micros (← count? v)))
  | some .timestamp => do some (.string (← timestamp? .millis ((← count? v) * 1000)))
  | some .microTimestamp => do some (.string (← timestamp? .micros (← count? v)))
  | some .decimal => do some (.string (← decimal? f.scale (← v.string?)))
  | _ =>
    match v with
    | .float x => if f.isInteger && x.isIntegral then some (.int (clamp64 x.truncate)) else none
    | _ => none

/-- The value of a field in the form it stands for. -/
def convert (f : Field) (v : Json) : Json := (converted? f v).getD v

/-- A row whose values stand in the form of their fields. -/
def convertRow (fs : List Field) (r : Row) : Row :=
  fs.foldl (fun r f => r.modify f.name (convert f)) r

/-- Whether a field is of decimal numbers with more places than can be written. -/
def isOverlong (f : Field) : Bool := f.logicalType == some .decimal && decide (maxPadding ≤ f.scale)

/-- Whether a value brings the conversion of its row down: a decimal number that cannot be
written. -/
def breaks (f : Field) (v : Json) : Bool := isOverlong f && (v.string?.bind units?).isSome

/-- Whether a row cannot be converted to the form of its fields. -/
def breaksRow : List Field → Row → Bool
  | [], _ => false
  | f :: fs, r =>
    isOverlong f && (r.get? f.name).any (breaks f) || breaksRow fs (r.modify f.name (convert f))

end ChangeCapture.Debezium
