import ChangeCapture.Binary64.Basic

/-!
# Shortest decimal text of a binary64 number

The reals that round to a number form an interval, with its ends if the
mantissa is even.  The shortest text has the fewest digits of a decimal in that
interval.  Of two such decimals the nearer one is taken, and on a tie the one
with an even last digit.

If a point of a decimal grid lies in the interval, then so does one of the two
neighbours of the number on that grid.  So `candidate?` looks at those only.
-/

namespace ChangeCapture.Binary64

/--
The reals that round to a magnitude, over a common denominator.

The magnitude is `value / den`, the interval goes from `low / den` to
`high / den`.
-/
structure Interval where
  /-- The lower end. -/
  low : Nat
  /-- The number itself. -/
  value : Nat
  /-- The upper end. -/
  high : Nat
  /-- The denominator. -/
  den : Nat
  /-- Whether the ends belong to the interval. -/
  closed : Bool

/-- The interval of a number.  Below a power of two the spacing is halved. -/
def interval (x : Binary64) : Interval :=
  let m := x.mantissa
  let s := 1 <<< x.scale
  let below := if m = 1 <<< 52 ∧ 0 < x.scale then 1 else 2
  { low := (4 * m - below) * s, value := 4 * m * s, high := (4 * m + 2) * s
    den := 1 <<< 1076, closed := m % 2 == 0 }

/-- Whether `n / d` lies in the interval. -/
def Interval.holds (i : Interval) (n d : Nat) : Bool :=
  if i.closed then decide (i.low * d ≤ n * i.den) && decide (n * i.den ≤ i.high * d)
  else decide (i.low * d < n * i.den) && decide (n * i.den < i.high * d)

/-- The decimal `n * 10 ^ p` as a ratio. -/
def decimalRatio (n : Nat) (p : Int) : Nat × Nat :=
  if 0 ≤ p then (n * Nat.pow 10 p.natAbs, 1) else (n, Nat.pow 10 p.natAbs)

/-- The digits of the nearest decimal of spacing `10 ^ p` in the interval, if there is one. -/
def candidate? (i : Interval) (p : Int) : Option Nat :=
  let (stepNum, stepDen) := decimalRatio 1 p
  let down := i.value * stepDen / (i.den * stepNum)
  let up := down + 1
  let inside (n : Nat) : Bool := let (a, b) := decimalRatio n p; i.holds a b
  match inside down, inside up with
  | true, true =>
    let twice := 2 * i.value * stepDen
    let middle := (2 * down + 1) * i.den * stepNum
    if twice < middle then some down
    else if middle < twice then some up
    else some (if down % 2 = 0 then down else up)
  | true, false => some down
  | false, true => some up
  | false, false => none

/-- The position of the leading decimal digit of `num / den`. -/
def leadingPower (num den : Nat) : Int :=
  if den ≤ num then (Nat.toDigits 10 (num / den)).length - 1
  else
    let inverse := (Nat.toDigits 10 (den / num)).length
    if den ≤ num * Nat.pow 10 (inverse - 1) then -((inverse : Int) - 1) else -(inverse : Int)

/-- The fewest digits, tried from the coarsest grid `10 ^ p` down, `n` grids in all. -/
def searchDigits (i : Interval) (p : Int) : Nat → Nat × Int
  | 0 => (0, p)
  | n + 1 => match candidate? i p with
    | some digits => (digits, p)
    | none => searchDigits i (p - 1) n

/-- Drops the zeros at the end of a decimal, at most `n` of them. -/
def dropZeros (digits : Nat) (p : Int) : Nat → Nat × Int
  | 0 => (digits, p)
  | n + 1 => if digits % 10 = 0 ∧ 0 < digits then dropZeros (digits / 10) (p + 1) n else (digits, p)

/-- The shortest decimal `digits * 10 ^ p` that rounds to the magnitude of a number. -/
def shortestDecimal (x : Binary64) : Nat × Int :=
  if x.isZero then (0, 0)
  else
    let i := x.interval
    let (digits, p) := searchDigits i (leadingPower i.value i.den + 1) 19
    dropZeros digits p 19

/-! ## Text -/

/-- How a magnitude is written. -/
structure FloatFormat where
  /-- The least decimal exponent that is written with a point. -/
  minPlain : Int
  /-- The greatest decimal exponent that is written with a point. -/
  maxPlain : Int

/-- JSON numbers: a point between `0.00001` and `9999999999999999.0`, else an exponent. -/
def jsonFormat : FloatFormat := ⟨-5, 15⟩

/-- Writes a decimal with a point and at least one digit on each side of it. -/
def plainText (digits : List Char) (exponent : Int) : List Char :=
  if exponent < 0 then
    '0' :: '.' :: List.replicate (exponent.natAbs - 1) '0' ++ digits
  else
    let whole := exponent.natAbs + 1
    let padded := digits ++ List.replicate (whole - digits.length) '0'
    let fraction := padded.drop whole
    padded.take whole ++ '.' :: (if fraction.isEmpty then ['0'] else fraction)

/-- Writes a decimal with one digit before the point and a signed exponent. -/
def exponentText (digits : List Char) (exponent : Int) : List Char :=
  let body := match digits with
    | [] => []
    | [d] => [d]
    | d :: rest => d :: '.' :: rest
  let sign := if exponent < 0 then '-' else '+'
  body ++ 'e' :: sign :: Nat.toDigits 10 exponent.natAbs

/-- The shortest text of a number. -/
def toText (fmt : FloatFormat) (x : Binary64) : List Char :=
  let (n, p) := shortestDecimal x
  let digits := Nat.toDigits 10 n
  let exponent := p + digits.length - 1
  let body :=
    if fmt.minPlain ≤ exponent ∧ exponent ≤ fmt.maxPlain then plainText digits exponent
    else exponentText digits exponent
  if x.negative then '-' :: body else body

/-- The shortest text of a number that has no exponent.  A whole number has no point. -/
def toPlainText (x : Binary64) : List Char :=
  let (n, p) := shortestDecimal x
  let digits := Nat.toDigits 10 n
  let body :=
    if 0 ≤ p then digits ++ List.replicate p.toNat '0' else plainText digits (p + digits.length - 1)
  if x.negative then '-' :: body else body

end ChangeCapture.Binary64
