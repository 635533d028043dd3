import ChangeCapture.Binary64.Basic
import ChangeCapture.SortedMap

/-!
# JSON values

A number is an integer or a binary64 number, and which of the two it is can be
told from its text.  The fields of an object stand in increasing order of their
names, each name once (`Json.ofFields` restores that).
-/

namespace ChangeCapture

/-- A JSON value. -/
inductive Json where
  /-- The null value. -/
  | null
  /-- A truth value. -/
  | bool (b : Bool)
  /-- An integer between `-2 ^ 63` and `2 ^ 64 - 1`. -/
  | int (n : Int)
  /-- Any other number. -/
  | float (x : Binary64)
  /-- A text. -/
  | string (s : String)
  /-- A list of values. -/
  | array (items : List Json)
  /-- Named values, in increasing order of the names. -/
  | object (fields : List (String × Json))
  deriving Inhabited, Repr

namespace Json

/-- The object of a list of fields, in which the last of two fields of one name wins. -/
def ofFields (fields : List (String × Json)) : Json := .object (SortedMap.ofList fields).entries

/-- The object of a map. -/
def ofMap (m : SortedMap String Json) : Json := .object m.entries

/-- The value of a field of an object. -/
def field? (v : Json) (name : String) : Option Json :=
  match v with
  | .object fields => fields.lookup name
  | _ => none

/-- Whether the value is null. -/
def isNull : Json → Bool
  | .null => true
  | _ => false

/-- Whether the value is the truth value "true". -/
def isTrue : Json → Bool
  | .bool b => b
  | _ => false

end Json

end ChangeCapture
