/-!
# Integers in text

Decimal integers with an optional sign, within bounds.
-/

namespace ChangeCapture.Text

/-- The value of a list of decimal digits, which must not be empty. -/
def digits? (cs : List Char) : Option Nat :=
  if !cs.isEmpty && cs.all Char.isDigit then
    some (cs.foldl (fun n c => 10 * n + (c.toNat - '0'.toNat)) 0)
  else none

/-- The number below `bound` that a text holds.  A plus sign may stand in front. -/
def natBelow? (bound : Nat) (s : String) : Option Nat := do
  let n ← digits? (match s.toList with
    | '+' :: rest => rest
    | cs => cs)
  if n < bound then some n else none

/-- The integer of 64 bits that a text holds.  A sign may stand in front. -/
def int64? (s : String) : Option Int := do
  let (negative, cs) := match s.toList with
    | '+' :: rest => (false, rest)
    | '-' :: rest => (true, rest)
    | cs => (false, cs)
  let n ← digits? cs
  if negative then if n ≤ 1 <<< 63 then some (-n) else none
  else if n < 1 <<< 63 then some n else none

end ChangeCapture.Text
