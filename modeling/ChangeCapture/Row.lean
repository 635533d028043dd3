import ChangeCapture.Json.Basic
import ChangeCapture.Json.Printer

/-!
# Rows

A row holds values under column names.  The source may send a placeholder for
a value that it left out because it did not change.
-/

namespace ChangeCapture

/-- The values of a row by column. -/
abbrev Row := SortedMap String Json

namespace Json

/-- The text that stands for a value that the source left out. -/
def unavailable : String := "__debezium_unavailable_value"

/-- Whether a value is the placeholder. -/
def isPlaceholder : Json → Bool
  | .string s => s == unavailable
  | _ => false

/-- Whether a value is the placeholder, plain or as the name of a field. -/
def standsForUnavailable (v : Json) : Bool := v.isPlaceholder || (v.field? unavailable).isSome

/-- The plain placeholder in place of one that is the name of a field. -/
def collapsed (v : Json) : Json := if v.standsForUnavailable then .string unavailable else v

/-- The least magnitude at which binary64 numbers skip integers. -/
def safeIntegers : Int := 0x20000000000000

/-- The text of a value in a key.  A text stands for itself, and a number without fraction is
written as an integer, so that `1` and `1.0` are one key. -/
def keyText : Json → String
  | .string s => s
  | .float x =>
    if x.isIntegral && decide (x.truncate.natAbs < safeIntegers.natAbs) then
      String.ofList (intText x.truncate)
    else (Json.float x).toText
  | v => v.toText

end Json

/-! ## Sizes -/

namespace Row

/-- The number of bytes that one value takes, what it refers to aside. -/
def slotBytes : Nat := 32

/-- The greatest size that is told apart from larger ones. -/
def maxBytes : Nat := 1 <<< 64 - 1

/-- The sum of two sizes, up to the greatest one. -/
def addBytes (m n : Nat) : Nat := min (m + n) maxBytes

mutual

/-- The estimated size of a value. -/
def valueBytes : Json → Nat
  | .string s => addBytes slotBytes s.utf8ByteSize
  | .array items => addBytes slotBytes (itemBytes 0 items)
  | .object fields => addBytes slotBytes (fieldBytes 0 fields)
  | _ => slotBytes

/-- The estimated size of a list of values, on top of `acc`. -/
def itemBytes (acc : Nat) : List Json → Nat
  | [] => acc
  | v :: rest => itemBytes (addBytes acc (valueBytes v)) rest

/-- The estimated size of named values, on top of `acc`. -/
def fieldBytes (acc : Nat) : List (String × Json) → Nat
  | [] => acc
  | (name, v) :: rest =>
    fieldBytes (addBytes (addBytes acc name.utf8ByteSize) (valueBytes v)) rest

end

/-- The estimated size of a row. -/
def byteSize (r : Row) : Nat := fieldBytes 0 r.entries

end Row

end ChangeCapture
