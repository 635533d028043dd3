/-!
# Base64

The standard alphabet with padding.  Only the canonical text of a byte list is
accepted: its length is a multiple of four, padding stands at its end, and the
bits that belong to no byte are zero.
-/

namespace ChangeCapture.Base64

/-- The six bits of a character of the alphabet. -/
def sextet? (c : Char) : Option Nat :=
  if 'A' ≤ c ∧ c ≤ 'Z' then some (c.toNat - 'A'.toNat)
  else if 'a' ≤ c ∧ c ≤ 'z' then some (c.toNat - 'a'.toNat + 26)
  else if '0' ≤ c ∧ c ≤ '9' then some (c.toNat - '0'.toNat + 52)
  else if c = '+' then some 62
  else if c = '/' then some 63
  else none

/-- The bytes of the last four characters, which may hold padding. -/
def lastBytes? (a b c d : Char) : Option (List UInt8) := do
  let a ← sextet? a
  let b ← sextet? b
  if c = '=' ∧ d = '=' then
    if b % 16 = 0 then some [UInt8.ofNat (a * 4 + b / 16)] else none
  else
    let c ← sextet? c
    if d = '=' then
      if c % 4 = 0 then some [UInt8.ofNat (a * 4 + b / 16), UInt8.ofNat (b % 16 * 16 + c / 4)]
      else none
    else
      let d ← sextet? d
      some [UInt8.ofNat (a * 4 + b / 16), UInt8.ofNat (b % 16 * 16 + c / 4),
        UInt8.ofNat (c % 4 * 64 + d)]

/-- The bytes that a text encodes. -/
def decode? : List Char → Option (List UInt8)
  | [] => some []
  | [a, b, c, d] => lastBytes? a b c d
  | a :: b :: c :: d :: rest =>
    if c = '=' ∨ d = '=' then none
    else do
      let bytes ← lastBytes? a b c d
      let more ← decode? rest
      some (bytes ++ more)
  | _ => none

/-- The character of six bits. -/
def sextetChar (n : Nat) : Char :=
  if n < 26 then Char.ofNat ('A'.toNat + n)
  else if n < 52 then Char.ofNat ('a'.toNat + (n - 26))
  else if n < 62 then Char.ofNat ('0'.toNat + (n - 52))
  else if n = 62 then '+'
  else '/'

/-- The text of a list of bytes. -/
def encode : List UInt8 → List Char
  | [] => []
  | [x] =>
    let x := x.toNat
    [sextetChar (x / 4), sextetChar (x % 4 * 16), '=', '=']
  | [x, y] =>
    let x := x.toNat
    let y := y.toNat
    [sextetChar (x / 4), sextetChar (x % 4 * 16 + y / 16), sextetChar (y % 16 * 4), '=']
  | x :: y :: z :: rest =>
    let x := x.toNat
    let y := y.toNat
    let z := z.toNat
    sextetChar (x / 4) :: sextetChar (x % 4 * 16 + y / 16) ::
      sextetChar (y % 16 * 4 + z / 64) :: sextetChar (z % 64) :: encode rest

end ChangeCapture.Base64
