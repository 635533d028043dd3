import ChangeCapture.Binary64.Shortest
import ChangeCapture.Json.Basic

/-!
# JSON values as text

The compact text of a value: no space, fields in order, and no escape but those
that a string needs.
-/

namespace ChangeCapture.Json

/-- A hexadecimal digit, in lower case. -/
def hexChar (n : Nat) : Char := (Nat.toDigits 16 n).headD '0'

/-- A character inside a string.  Quotes, backslashes and control characters are escaped. -/
def charText (c : Char) : List Char :=
  match c with
  | '"' => ['\\', '"']
  | '\\' => ['\\', '\\']
  | '\n' => ['\\', 'n']
  | '\r' => ['\\', 'r']
  | '\t' => ['\\', 't']
  | c =>
    if c.toNat = 0x08 then ['\\', 'b']
    else if c.toNat = 0x0c then ['\\', 'f']
    else if c.toNat < 0x20 then
      ['\\', 'u', '0', '0', hexChar (c.toNat / 16), hexChar (c.toNat % 16)]
    else [c]

/-- A string between quotes. -/
def quoted (s : String) : List Char := '"' :: s.toList.flatMap charText ++ ['"']

/-- An integer in decimal. -/
def intText (n : Int) : List Char :=
  if n < 0 then '-' :: Nat.toDigits 10 n.natAbs else Nat.toDigits 10 n.natAbs

mutual

/-- The compact text of a value. -/
def chars : Json → List Char
  | .null => ['n', 'u', 'l', 'l']
  | .bool true => ['t', 'r', 'u', 'e']
  | .bool false => ['f', 'a', 'l', 's', 'e']
  | .int n => intText n
  | .float x => x.toText Binary64.jsonFormat
  | .string s => quoted s
  | .array items => '[' :: itemChars items ++ [']']
  | .object fields => '\x7b' :: fieldChars fields ++ ['\x7d']

/-- The items of an array, with commas between them. -/
def itemChars : List Json → List Char
  | [] => []
  | [v] => v.chars
  | v :: rest => v.chars ++ ',' :: itemChars rest

/-- The fields of an object, with commas between them. -/
def fieldChars : List (String × Json) → List Char
  | [] => []
  | [(name, v)] => quoted name ++ ':' :: v.chars
  | (name, v) :: rest => quoted name ++ ':' :: v.chars ++ ',' :: fieldChars rest

end

/-- The compact text of a value. -/
def toText (v : Json) : String := String.ofList v.chars

end ChangeCapture.Json
