import ChangeCapture.Json.Record
import ChangeCapture.Settings.Reader

/-!
# Settings in strict JSON

Values are what they are: a number is no text and a text is no number.
-/

namespace ChangeCapture.Settings

/-- A choice: its name alone, or an object of which its name is the only field. -/
def strictChoice? (names : List String) : Json → Option (String × Option Json)
  | .string s => if names.contains s then some (s, none) else none
  | .object [(name, content)] => if names.contains name then some (name, some content) else none
  | _ => none

/-- How strict JSON is understood. -/
def strict : Dialect Json where
  text? := Json.string?
  flag? := fun
    | .bool b => some b
    | _ => none
  natural? := fun
    | .int n => if 0 ≤ n then some n.toNat else none
    | _ => none
  items? := Json.array?
  isNull := Json.isNull
  record? := Json.record?
  chosenRecord? := fun _ => Json.object?
  choice? := strictChoice?
  isBare := fun content => content.all Json.isNull

end ChangeCapture.Settings
