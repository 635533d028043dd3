import ChangeCapture.Binary64.Decimal
import ChangeCapture.Json.Basic
import ChangeCapture.Json.Syntax

/-!
# JSON texts as values

A text has a value if it is JSON, nests no deeper than `maxDepth`, pairs its
surrogates, and holds no number beyond binary64.

Numbers keep as many leading digits as fit 64 bits.  The digits dropped before
the point count in the exponent, those dropped after it do not count at all.
-/

namespace ChangeCapture.Json

/-- The number of arrays and objects that may enclose one another. -/
def maxDepth : Nat := 127

/-! ## Numbers -/

/-- The bound of the significand. -/
def significandBound : Nat := 1 <<< 64

/-- Appends digits to a significand as long as it stays below its bound: the significand, and
how many digits were taken. -/
def takeDigits (significand taken : Nat) : List Char → Nat × Nat
  | [] => (significand, taken)
  | c :: cs =>
    let next := 10 * significand + (c.toNat - '0'.toNat)
    if next < significandBound then takeDigits next (taken + 1) cs else (significand, taken)

/-- The value of a decimal exponent. -/
def exponentValue : Option (Bool × List Char) → Int
  | none => 0
  | some (negative, ds) =>
    let n : Int := Binary64.digitsValue ds
    if negative then -n else n

/-- The value of a numeral, unless it lies beyond binary64. -/
def NumberText.value? (n : NumberText) : Option Json :=
  let (significand, taken) := takeDigits 0 0 n.whole
  let dropped : Int := n.whole.length - taken
  let float (significand : Nat) (exponent : Int) : Option Json :=
    (Binary64.ofScaled significand exponent).map fun x =>
      .float (if n.negative then x.neg else x)
  match n.fraction, n.exponent with
  | none, none =>
    if dropped ≠ 0 then float significand dropped
    else if ¬ n.negative then some (.int significand)
    else if 0 < significand ∧ significand ≤ 1 <<< 63 then some (.int (-significand))
    else float significand 0
  | fraction, exponent =>
    let (significand, taken) := takeDigits significand 0 (fraction.getD [])
    float significand (dropped - taken + exponentValue exponent)

/-! ## Strings -/

/-- Whether a unit opens a surrogate pair. -/
def isHighSurrogate (n : Nat) : Bool := 0xd800 ≤ n && n ≤ 0xdbff

/-- Whether a unit closes a surrogate pair. -/
def isLowSurrogate (n : Nat) : Bool := 0xdc00 ≤ n && n ≤ 0xdfff

/-- The characters of a string, unless a surrogate stands alone. -/
def decodePieces? (acc : List Char) : List Piece → Option (List Char)
  | [] => some acc.reverse
  | .char c :: rest => decodePieces? (c :: acc) rest
  | .unit n :: .unit m :: rest =>
    if isHighSurrogate n then
      if isLowSurrogate m then
        decodePieces? (Char.ofNat (0x10000 + (n - 0xd800) * 0x400 + (m - 0xdc00)) :: acc) rest
      else none
    else if isLowSurrogate n then none
    else decodePieces? (Char.ofNat n :: acc) (.unit m :: rest)
  | .unit n :: rest =>
    if isHighSurrogate n || isLowSurrogate n then none
    else decodePieces? (Char.ofNat n :: acc) rest

/-- The text of a string, unless a surrogate stands alone. -/
def text? (pieces : List Piece) : Option String := (decodePieces? [] pieces).map String.ofList

/-! ## Values -/

mutual

/-- The value of a tree that is allowed `depth` further levels. -/
def Tree.value? (depth : Nat) : Tree → Option Json
  | .null => some .null
  | .bool b => some (.bool b)
  | .number n => n.value?
  | .string ps => (text? ps).map .string
  | .array items =>
    match depth with
    | 0 => none
    | depth + 1 => (Tree.values? depth items).map .array
  | .object fields =>
    match depth with
    | 0 => none
    | depth + 1 => (Tree.fields? depth fields).map ofFields

/-- The values of a list of trees. -/
def Tree.values? (depth : Nat) : List Tree → Option (List Json)
  | [] => some []
  | t :: rest =>
    match t.value? depth, Tree.values? depth rest with
    | some v, some vs => some (v :: vs)
    | _, _ => none

/-- The fields of an object. -/
def Tree.fields? (depth : Nat) : List (List Piece × Tree) → Option (List (String × Json))
  | [] => some []
  | (name, t) :: rest =>
    match text? name, t.value? depth, Tree.fields? depth rest with
    | some name, some v, some fields => some ((name, v) :: fields)
    | _, _, _ => none

end

/-- The value of a text. -/
def read? (s : String) : Option Json := (Tree.read? s.toList).bind (Tree.value? maxDepth)

/-- The value of a text given as UTF-8. -/
def readBytes? (bytes : ByteArray) : Option Json := (String.fromUTF8? bytes).bind read?

end ChangeCapture.Json
