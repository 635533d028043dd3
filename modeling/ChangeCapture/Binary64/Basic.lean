/-!
# Binary64 numbers in exact arithmetic

A finite binary64 number is a sign, a mantissa and a scale: the value is
`± mantissa * 2 ^ (scale - 1074)`.  The canonical forms have a mantissa below
`2 ^ 53`, and below `2 ^ 52` only at scale zero.

Rounding is one function on ratios of natural numbers, to the nearest number
and on a tie to the even mantissa.  Products and quotients are the exact ratio,
rounded once.  A result too large for the format is `none`.
-/

namespace ChangeCapture

/-- A finite binary64 number. -/
structure Binary64 where
  /-- Whether the number carries a minus sign, zero included. -/
  negative : Bool
  /-- The significant bits. -/
  mantissa : Nat
  /-- The power of two, counted from the least one, `2 ^ (-1074)`. -/
  scale : Nat
  deriving DecidableEq, Repr, Inhabited

namespace Binary64

/-- The largest scale of a finite number. -/
def maxScale : Nat := 2045

/-- Zero, with a sign. -/
def zero (negative : Bool) : Binary64 := ⟨negative, 0, 0⟩

/-- Whether the number is zero of either sign. -/
def isZero (x : Binary64) : Bool := x.mantissa == 0

/-- The same number with the other sign. -/
def neg (x : Binary64) : Binary64 := { x with negative := !x.negative }

/-- The numerator of the magnitude over `2 ^ 1074`. -/
def units (x : Binary64) : Nat := x.mantissa <<< x.scale

/-- `num / den` to the nearest natural number, on a tie to the even one. -/
def roundDiv (num den : Nat) : Nat :=
  let q := num / den
  let twice := 2 * (num % den)
  if twice < den then q
  else if twice = den then q + q % 2
  else q + 1

/-- The scale at which `num / den` units fill 53 bits, or zero when they never do. -/
def scaleFor (num den : Nat) : Nat :=
  let guess := num.log2 - den.log2 - 52
  if num / (den <<< guess) < 1 <<< 52 then guess - 1 else guess

/-- The number nearest to `num / den` units of `2 ^ (-1074)`, if the format has one. -/
def ofUnits (negative : Bool) (num den : Nat) : Option Binary64 :=
  let scale := scaleFor num den
  let m := roundDiv num (den <<< scale)
  let (m, scale) := if m = 1 <<< 53 then (1 <<< 52, scale + 1) else (m, scale)
  if scale ≤ maxScale then some ⟨negative, m, scale⟩ else none

/-- The number nearest to `num / den`, if the format has one. -/
def ofRatio (negative : Bool) (num den : Nat) : Option Binary64 :=
  ofUnits negative (num <<< 1074) den

/-- The product, rounded once. -/
def mul? (x y : Binary64) : Option Binary64 :=
  ofUnits (x.negative != y.negative) (x.units * y.units) (1 <<< 1074)

/-- The quotient, rounded once.  The divisor is not zero. -/
def div? (x y : Binary64) : Option Binary64 :=
  ofRatio (x.negative != y.negative) x.units y.units

/-- Whether the number is an integer. -/
def isIntegral (x : Binary64) : Bool := x.units % 1 <<< 1074 == 0

/-- The integer that is left when the fraction is dropped. -/
def truncate (x : Binary64) : Int :=
  let n : Nat := x.units >>> 1074
  if x.negative then -(n : Int) else n

end Binary64

end ChangeCapture
