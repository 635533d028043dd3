import ChangeCapture.Binary64.Basic

/-!
# Decimal numerals read as binary64

Two rules are in use.  `ofDecimal` is the nearest number to the numeral.
`ofScaled` is the rule of JSON numbers: the significand is rounded to a number,
and that number is multiplied or divided by a rounded power of ten.  The second
rule can miss the nearest number by one unit, so it is kept apart.
-/

namespace ChangeCapture.Binary64

/-- The largest power of ten that is a finite number. -/
def maxPowerOfTen : Nat := 308

/-- The number nearest to `10 ^ n`, for `n` up to `maxPowerOfTen`. -/
def powerOfTen (n : Nat) : Binary64 := (ofRatio false (Nat.pow 10 n) 1).getD (zero false)

/-- The number nearest to a natural number below `2 ^ 1024`. -/
def ofNat (n : Nat) : Binary64 := (ofRatio false n 1).getD (zero false)

/--
A significand scaled by a power of ten, with one rounding for each of them.

A power below the least one is divided out in two steps.  Below twice the least
power nothing is left of a 64-bit significand.
-/
def ofScaled (significand : Nat) (exponent : Int) : Option Binary64 :=
  let x := ofNat significand
  let n := exponent.natAbs
  if 0 ≤ exponent then
    if n ≤ maxPowerOfTen then mul? x (powerOfTen n)
    else if x.isZero then some x else none
  else if n ≤ maxPowerOfTen then div? x (powerOfTen n)
  else if n ≤ 2 * maxPowerOfTen then
    (div? x (powerOfTen maxPowerOfTen)).bind fun y => div? y (powerOfTen (n - maxPowerOfTen))
  else some (zero false)

/-- The number of decimal digits of a natural number. -/
def digitCount (n : Nat) : Nat := (Nat.toDigits 10 n).length

/--
The number nearest to `digits * 10 ^ exponent`, if the format has one.

Numerals far outside the range are settled by their digit count, so that no
huge power is computed.
-/
def ofDecimal (negative : Bool) (digits : Nat) (exponent : Int) : Option Binary64 :=
  let top := digitCount digits + exponent
  if digits = 0 ∨ top < -330 then some (zero negative)
  else if 310 < top then none
  else if 0 ≤ exponent then ofRatio negative (digits * Nat.pow 10 exponent.natAbs) 1
  else ofRatio negative digits (Nat.pow 10 exponent.natAbs)

/-! ## Numeric text -/

/-- What a numeral in a text stands for. -/
inductive Numeral where
  /-- A finite number. -/
  | finite (x : Binary64)
  /-- A number beyond the format, or a spelled infinity. -/
  | infinite (negative : Bool)
  /-- The spelled "not a number". -/
  | nan
  deriving DecidableEq, Repr

/-- Splits off the leading decimal digits. -/
def spanDigits (cs : List Char) : List Char × List Char := cs.span Char.isDigit

/-- The value of a list of decimal digits. -/
def digitsValue (cs : List Char) : Nat := cs.foldl (fun n c => 10 * n + (c.toNat - '0'.toNat)) 0

/-- Reads an optional sign: whether it is a minus, and the rest. -/
def readSign : List Char → Bool × List Char
  | '-' :: cs => (true, cs)
  | '+' :: cs => (false, cs)
  | cs => (false, cs)

/-- Reads the exponent of a numeral, which is all that is left of the text. -/
def readExponent : List Char → Option Int
  | [] => some 0
  | c :: cs =>
    if c = 'e' ∨ c = 'E' then
      let (negative, cs) := readSign cs
      let (digits, rest) := spanDigits cs
      if digits.isEmpty ∨ ¬ rest.isEmpty then none
      else some (if negative then -(digitsValue digits : Int) else digitsValue digits)
    else none

/-- Reads digits with an optional point and an optional exponent. -/
def readDecimal (negative : Bool) (cs : List Char) : Option Numeral :=
  let (whole, rest) := spanDigits cs
  let (fraction, rest) := match rest with
    | '.' :: rest => spanDigits rest
    | rest => ([], rest)
  if whole.isEmpty ∧ fraction.isEmpty then none
  else (readExponent rest).map fun e =>
    match ofDecimal negative (digitsValue (whole ++ fraction)) (e - fraction.length) with
    | some x => .finite x
    | none => .infinite negative

/-- Reads a numeral that is the whole text, as spelled by most programming languages. -/
def readNumeral (s : String) : Option Numeral :=
  let (negative, cs) := readSign s.toList
  match String.ofList (cs.map Char.toLower) with
  | "inf" | "infinity" => some (.infinite negative)
  | "nan" => some .nan
  | _ => readDecimal negative cs

end ChangeCapture.Binary64
