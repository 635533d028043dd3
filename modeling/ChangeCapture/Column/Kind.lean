import ChangeCapture.Text.Integer

/-!
# Column kinds

What the values of a column are.  A column starts with the invalid kind and
keeps it until a value other than null is seen, or until a schema names its
kind.
-/

namespace ChangeCapture

/-- What a column of dates or times holds. -/
inductive TimeKind where
  /-- Days. -/
  | date
  /-- Times of day. -/
  | time
  /-- Points in time. -/
  | timestampTz
  /-- Dates with a time of day, in no time zone. -/
  | timestampNtz
  deriving DecidableEq, Repr, Inhabited

/-- The name of a kind of time. -/
def TimeKind.name : TimeKind → String
  | .date => "date"
  | .time => "time"
  | .timestampTz => "timestamp_tz"
  | .timestampNtz => "timestamp_ntz"

/-- The kind of a column. -/
inductive ColumnKind where
  /-- No kind is known yet. -/
  | invalid
  /-- Texts. -/
  | string
  /-- Integers. -/
  | integer
  /-- Binary64 numbers. -/
  | float
  /-- Truth values. -/
  | boolean
  /-- Objects, and texts that hold JSON. -/
  | struct
  /-- Lists. -/
  | array
  /-- Decimal numbers with a fixed number of places. -/
  | decimal (precision : Option Nat) (scale : Nat)
  /-- Dates and times. -/
  | extendedTime (kind : TimeKind)
  deriving DecidableEq, Repr, Inhabited

namespace ColumnKind

/-- The name of a kind, without its parameters. -/
def name : ColumnKind → String
  | .invalid => "invalid"
  | .string => "string"
  | .integer => "int"
  | .float => "float"
  | .boolean => "bool"
  | .struct => "struct"
  | .array => "array"
  | .decimal .. => "decimal"
  | .extendedTime _ => "extended_time"

/-- The text of a kind, with its parameters. -/
def text : ColumnKind → String
  | .decimal (some precision) scale =>
    "decimal(" ++ toString precision ++ ", " ++ toString scale ++ ")"
  | .decimal none scale => "decimal(*, " ++ toString scale ++ ")"
  | .extendedTime kind => "extended_time(" ++ kind.name ++ ")"
  | kind => kind.name

/-- The kinds without numbers. -/
def unnumbered : List ColumnKind := [
  .invalid, .string, .integer, .float, .boolean, .struct, .array, .extendedTime .date,
  .extendedTime .time, .extendedTime .timestampTz, .extendedTime .timestampNtz]

/-- The kind of decimals whose text begins with `decimal(`, from what follows there. -/
def decimalOfText? (cs : List Char) : Option ColumnKind := do
  let (precision, rest) := cs.span (· != ',')
  let (scale, rest) := (rest.drop 2).span Char.isDigit
  let scale ← Text.digits? scale
  if rest != [')'] then none
  else if precision == ['*'] then some (.decimal none scale)
  else some (.decimal (some (← Text.digits? precision)) scale)

/-- The kind of a text. -/
def ofText? (s : String) : Option ColumnKind :=
  match unnumbered.find? fun kind => kind.text == s with
  | some kind => some kind
  | none =>
    let opening := "decimal(".toList
    if opening.isPrefixOf s.toList then decimalOfText? (s.toList.drop opening.length) else none

end ColumnKind

end ChangeCapture
