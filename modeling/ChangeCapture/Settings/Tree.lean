import ChangeCapture.Binary64.Decimal
import ChangeCapture.Binary64.Shortest
import ChangeCapture.Json.Basic
import ChangeCapture.Settings.Reader
import ChangeCapture.Text.Integer
import ChangeCapture.Unicode.Lowercase
import ChangeCapture.Yaml.Node

/-!
# Trees of settings

Settings come from files and from variables of the environment.  Both give
trees, whose values convert into each other: the text `77` is a number where a
number is asked for, and a number is a text where a text is asked for.
-/

namespace ChangeCapture

/-- A tree of settings. -/
inductive SettingTree where
  /-- Nothing. -/
  | null
  /-- A truth value. -/
  | flag (b : Bool)
  /-- An integer of 64 bits. -/
  | integer (n : Int)
  /-- Another number. -/
  | real (x : Binary64.Numeral)
  /-- A text. -/
  | text (s : String)
  /-- A list. -/
  | list (items : List SettingTree)
  /-- Named trees. -/
  | table (fields : List (String × SettingTree))
  deriving Inhabited

namespace SettingTree

/-! ## Tables -/

/-- The fields of a table.  Other trees have none. -/
def fields : SettingTree → List (String × SettingTree)
  | table fields => fields
  | _ => []

/-- Replaces a field, or adds it at the end. -/
def setField (name : String) (v : SettingTree) :
    List (String × SettingTree) → List (String × SettingTree)
  | [] => [(name, v)]
  | (n, w) :: rest => if n == name then (n, v) :: rest else (n, w) :: setField name v rest

/-! ## Trees of JSON values -/

mutual

/-- The tree of a JSON value. -/
def ofJson : Json → SettingTree
  | .null => .null
  | .bool b => .flag b
  | .int n =>
    if n < 0x8000000000000000 then .integer n else .real (.finite (Binary64.ofNat n.toNat))
  | .float x => .real (.finite x)
  | .string s => .text s
  | .array vs => .list (ofItems vs)
  | .object fs => .table (ofFields fs)

/-- The trees of JSON values. -/
def ofItems : List Json → List SettingTree
  | [] => []
  | v :: vs => ofJson v :: ofItems vs

/-- The trees of named JSON values. -/
def ofFields : List (String × Json) → List (String × SettingTree)
  | [] => []
  | (name, v) :: fs => (name, ofJson v) :: ofFields fs

end

/-! ## Trees of YAML nodes -/

/-- The text of the name of a field. -/
def nameText : Yaml.Name → String
  | .text s => s
  | .integer n => toString n

mutual

/-- The tree of a node.  No setting can hold a number that is spelled with a point and no digit. -/
def ofNode? : Yaml.Node → Option SettingTree
  | .null => some .null
  | .bad => some .null
  | .flag b => some (.flag b)
  | .integer n => some (.integer n)
  | .real s => (Binary64.readNumeral s).map .real
  | .text s => some (.text s)
  | .list vs => (ofNodes? vs).map .list
  | .table fs => (ofNamed? [] fs).map .table

/-- The trees of nodes. -/
def ofNodes? : List Yaml.Node → Option (List SettingTree)
  | [] => some []
  | v :: vs => do some ((← ofNode? v) :: (← ofNodes? vs))

/-- The trees of named nodes after other fields.  Of two names of one text the last one counts. -/
def ofNamed? (before : List (String × SettingTree)) :
    List (Yaml.Name × Yaml.Node) → Option (List (String × SettingTree))
  | [] => some before
  | (name, v) :: fs => do ofNamed? (setField (nameText name) (← ofNode? v) before) fs

end

/-! ## Conversions -/

/-- The text of a number. -/
def numeralText : Binary64.Numeral → String
  | .finite x => String.ofList x.toPlainText
  | .infinite negative => if negative then "-inf" else "inf"
  | .nan => "NaN"

/-- A tree as a text. -/
def text? : SettingTree → Option String
  | text s => some s
  | flag b => some (if b then "true" else "false")
  | integer n => some (toString n)
  | real x => some (numeralText x)
  | _ => none

/-- The truth values that texts stand for, beside `0` and `1`. -/
def flagOfWord? (s : String) : Option Bool :=
  match Unicode.lowercase s with
  | "true" | "on" | "yes" => some true
  | "false" | "off" | "no" => some false
  | _ => none

/-- A tree as a truth value. -/
def flag? : SettingTree → Option Bool
  | flag b => some b
  | integer n => some (n != 0)
  | real (.finite x) => some !x.isZero
  | real _ => some true
  | text "1" => some true
  | text "0" => some false
  | text s => flagOfWord? s
  | _ => none

/-- The bound of natural numbers. -/
def naturalBound : Nat := 1 <<< 64

/-- The natural number next to a number, within the bound. -/
def nearestNatural : Binary64.Numeral → Nat
  | .finite x =>
    if x.negative then 0 else min ((x.units * 2 + 1 <<< 1074) >>> 1075) (naturalBound - 1)
  | .infinite negative => if negative then 0 else naturalBound - 1
  | .nan => 0

/-- A tree as a natural number. -/
def natural? : SettingTree → Option Nat
  | integer n => if 0 ≤ n then some n.toNat else none
  | flag b => some b.toNat
  | real x => some (nearestNatural x)
  | text s =>
    match flagOfWord? s with
    | some b => some b.toNat
    | none => Text.natBelow? naturalBound s
  | _ => none

/-- A tree as a list. -/
def items? : SettingTree → Option (List SettingTree)
  | list items => some items
  | _ => none

/-- Whether a tree is nothing. -/
def isNull : SettingTree → Bool
  | null => true
  | _ => false

/-- A tree as a record whose fields have these names in this order.  A list may hold less or more
than the record. -/
def record? (names : List String) : SettingTree → Option (List (String × SettingTree))
  | table fields => some fields
  | list items => some (names.zip items)
  | _ => none

/-- A choice among names, in any case. -/
def chosen? (names : List String) (s : String) : Option String :=
  names.find? fun name => Unicode.lowercase name == Unicode.lowercase s

/-- A tree as a choice: a text, or a table with one field. -/
def choice? (names : List String) : SettingTree → Option (String × Option SettingTree)
  | text s => (chosen? names s).map (·, none)
  | table [(s, content)] => (chosen? names s).map (·, some content)
  | _ => none

/-- How trees of settings are understood. -/
def lenient : Dialect SettingTree where
  text? := text?
  flag? := flag?
  natural? := natural?
  items? := items?
  isNull := isNull
  record? := record?
  chosenRecord? := record?
  choice? := choice?
  isBare := fun _ => true

end SettingTree

end ChangeCapture
