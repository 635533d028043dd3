import ChangeCapture.Json.Basic

/-!
# Records in JSON

A record is written as an object, or as an array of its fields in their order.
A field that is null is there; a field that is not there takes its default
where it has one.
-/

namespace ChangeCapture.Json

/-- The fields of a record whose fields have these names in this order.  An array may leave out
the last ones and holds no others. -/
def record? (names : List String) : Json → Option (List (String × Json))
  | .object fields => some fields
  | .array items => if items.length ≤ names.length then some (names.zip items) else none
  | _ => none

/-- A text. -/
def string? : Json → Option String
  | .string s => some s
  | _ => none

/-- An integer of 64 bits. -/
def int64? : Json → Option Int
  | .int n => if n < 0x8000000000000000 then some n else none
  | _ => none

/-- A list. -/
def array? : Json → Option (List Json)
  | .array items => some items
  | _ => none

/-- Named values. -/
def object? : Json → Option (List (String × Json))
  | .object fields => some fields
  | _ => none

/-- Reads a value that may be null. -/
def nullable? {α : Type} (read : Json → Option α) : Json → Option (Option α)
  | .null => some none
  | v => (read v).map some

/-- Reads a field, or takes a default if it is not there. -/
def fieldOr {α : Type} (read : Json → Option α) (default : α) (name : String)
    (fields : List (String × Json)) : Option α :=
  match fields.lookup name with
  | some v => read v
  | none => some default

end ChangeCapture.Json
