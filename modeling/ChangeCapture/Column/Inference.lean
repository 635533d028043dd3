import ChangeCapture.Calendar.Reading
import ChangeCapture.Column.Kind
import ChangeCapture.Json.Basic
import ChangeCapture.Json.Syntax
import ChangeCapture.Unicode.Blank

/-!
# Kinds of values

The kind that a value suggests for its column.  A text may look like a date or
a time, or like a JSON object or array.  A hint for the column goes before
what its value looks like.
-/

namespace ChangeCapture

/-- The kind of date or time that a text is written as. -/
def TimeKind.ofText? (s : String) : Option TimeKind :=
  let cs := s.toList
  if Calendar.isRfc3339 cs then some .timestampTz
  else if Calendar.isLocalTimestamp cs then some .timestampNtz
  else if Calendar.isDate cs then some .date
  else if Calendar.isTime cs then some .time
  else none

/-- Whether a text opens and closes like a JSON object or array. -/
def Json.isBracketed (cs : List Char) : Bool :=
  match cs.head?, cs.getLast? with
  | some '\x7b', some '\x7d' => true
  | some '[', some ']' => true
  | _, _ => false

/-- Whether a text holds a JSON object or array, blanks around it aside. -/
def Json.isDocument (s : String) : Bool :=
  let cs := Unicode.trim s.toList
  Json.isBracketed cs && (Json.Tree.read? cs).isSome

/-- Hints at the kinds of columns, by the names the source gives them. -/
abbrev KindHints := SortedMap String ColumnKind

namespace ColumnKind

/-- The kind of a text.  Only a text with a colon or a hyphen can be a date or a time. -/
def ofText (s : String) : ColumnKind :=
  match if s.toList.any (fun c => c == ':' || c == '-') then TimeKind.ofText? s else none with
  | some kind => .extendedTime kind
  | none => if Json.isDocument s then .struct else .string

/-- The kind of a value. -/
def ofValue : Json → ColumnKind
  | .null => .invalid
  | .bool _ => .boolean
  | .int _ => .integer
  | .float _ => .float
  | .string s => ofText s
  | .array _ => .array
  | .object _ => .struct

/-- The kind of a column that holds a value: the hint for the column, or the kind of the value. -/
def infer (hints : Option KindHints) (column : String) (value : Json) : ColumnKind :=
  match hints.bind (·.get? column) with
  | some kind => kind
  | none => ofValue value

end ColumnKind

end ChangeCapture
