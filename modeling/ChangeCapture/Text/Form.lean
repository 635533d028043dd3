import ChangeCapture.Binary64.Decimal
import ChangeCapture.Calendar.Reading
import ChangeCapture.Fault
import ChangeCapture.Json.Reader
import ChangeCapture.Text.Base64
import ChangeCapture.Text.Integer

/-!
# Forms of text

What a sequence of bytes may be expected to hold, and the fault that arises
when it does not hold that.
-/

namespace ChangeCapture.Text

/-- What bytes may be expected to hold. -/
inductive Form where
  /-- An integer of 64 bits. -/
  | integer
  /-- A number. -/
  | number
  /-- A JSON value. -/
  | json
  /-- Text in UTF-8. -/
  | utf8
  /-- A date. -/
  | date
  /-- Bytes in base 64. -/
  | base64
  deriving DecidableEq, Repr, Inhabited

namespace Form

/-- The fault of bytes that do not hold what they should. -/
def fault : Form → Fault
  | integer => .plain .conversionError "Integer parsing failed"
  | number => .plain .conversionError "Float parsing failed"
  | json => .plain .deserializationError "JSON deserialization failed"
  | utf8 => .plain .conversionError "UTF-8 conversion failed"
  | date => .plain .conversionError "Datetime parsing failed"
  | base64 => .plain .conversionError "Base64 decoding failed"

/-- Whether a text is of a form. -/
def isHeldBy (s : String) : Form → Bool
  | integer => (int64? s).isSome
  | number => (Binary64.readNumeral s).isSome
  | json => (Json.read? s).isSome
  | utf8 => true
  | date => Calendar.isSpacedDate s.toList
  | base64 => (Base64.decode? s.toList).isSome

/-- Checks that bytes are of a form. -/
def check (f : Form) (bytes : ByteArray) : Outcome Unit :=
  if (String.fromUTF8? bytes).any fun s => f.isHeldBy s then .ok () else .error f.fault

end Form

/-- The fault of a source of bytes that breaks off. -/
def brokenOff : Fault := .plain .ioError "I/O operation failed"

/-- The fault of a source of JSON that breaks off. -/
def brokenOffJson : Fault := .plain .ioError "JSON I/O operation failed"

end ChangeCapture.Text
