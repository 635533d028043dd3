import ChangeCapture.Calendar.Date
import ChangeCapture.Unicode.Blank

/-!
# Reading dates and times

Readers for dates, times of day and timestamps, with and without an offset from
UTC.  Each takes a whole text.

The RFC 3339 reader has fixed widths.  The other readers are lenient: white
space may stand before a number, a number may have fewer digits than usual, and
a year with a sign may have any number of digits.
-/

namespace ChangeCapture.Calendar

/-- What is read of a text, with the characters after it. -/
abbrev Step (α : Type) := List Char → Option (α × List Char)

/-! ## Numbers -/

/-- The value of decimal digits. -/
def valueOf (ds : List Char) : Nat := ds.foldl (fun n c => 10 * n + (c.toNat - '0'.toNat)) 0

/-- Splits off at most `n` leading digits. -/
def takeDigits : Nat → List Char → List Char × List Char
  | n + 1, c :: cs =>
    if c.isDigit then
      let (ds, rest) := takeDigits n cs
      (c :: ds, rest)
    else ([], c :: cs)
  | _, cs => ([], cs)

/-- Reads a number of `least` to `most` digits. -/
def number (least most : Nat) : Step Nat := fun cs =>
  let (ds, rest) := takeDigits most cs
  if ds.length < least then none else some (valueOf ds, rest)

/-- Reads a number of one digit or more. -/
def anyNumber : Step Nat := fun cs =>
  let (ds, rest) := cs.span Char.isDigit
  if ds.isEmpty then none else some (valueOf ds, rest)

/-- Reads one given character. -/
def literal (c : Char) : List Char → Option (List Char)
  | c' :: cs => if c' = c then some cs else none
  | [] => none

/-- Reads a number and checks that it lies in a range. -/
def bounded (low high : Nat) (read : Step Nat) : Step Nat := fun cs =>
  match read cs with
  | some (n, rest) => if low ≤ n ∧ n ≤ high then some (n, rest) else none
  | none => none

/-! ## Fractions of a second -/

/-- Reads the digits of a fraction, any number of them but at least one. -/
def fractionDigits (cs : List Char) : Option (List Char) := (anyNumber cs).map Prod.snd

/-- Reads a point with digits, if there is a point. -/
def optionalFraction : List Char → Option (List Char)
  | '.' :: cs => fractionDigits cs
  | cs => some cs

/-! ## RFC 3339 -/

/-- Reads an offset from UTC, in minutes. -/
def offset : Step Int
  | 'Z' :: cs => some (0, cs)
  | 'z' :: cs => some (0, cs)
  | sign :: cs =>
    if sign = '+' ∨ sign = '-' ∨ sign = Char.ofNat 0x2212 then do
      let (hours, cs) ← number 2 2 cs
      let cs ← literal ':' cs
      let (minutes, cs) ← bounded 0 59 (number 2 2) cs
      let total : Int := hours * 60 + minutes
      some (if sign = '+' then total else -total, cs)
    else none
  | [] => none

/-- The largest offset from UTC, in minutes. -/
def maxOffset : Int := 23 * 60 + 59

/-- Reads the letter or the blank between a date and a time. -/
def separator : List Char → Option (List Char)
  | c :: cs => if c = 'T' ∨ c = 't' ∨ c = ' ' then some cs else none
  | [] => none

/-- Whether a text is a timestamp with an offset as RFC 3339 writes it. -/
def isRfc3339 (cs : List Char) : Bool := Option.isSome do
  let (year, cs) ← number 4 4 cs
  let cs ← literal '-' cs
  let (month, cs) ← number 2 2 cs
  let cs ← literal '-' cs
  let (day, cs) ← number 2 2 cs
  let cs ← separator cs
  let (_, cs) ← bounded 0 23 (number 2 2) cs
  let cs ← literal ':' cs
  let (_, cs) ← bounded 0 59 (number 2 2) cs
  let cs ← literal ':' cs
  let (_, cs) ← bounded 0 60 (number 2 2) cs
  let cs ← optionalFraction cs
  let (off, cs) ← offset cs
  let _ ← Date.ofParts? year month day
  if cs.isEmpty ∧ -maxOffset ≤ off ∧ off ≤ maxOffset then some () else none

/-! ## Lenient readers -/

/-- Reads a year: up to four digits, or a sign and any number of digits. -/
def lenientYear : Step Int := fun cs =>
  match Unicode.trimStart cs with
  | '-' :: cs => (anyNumber cs).map fun (n, cs) => (-(n : Int), cs)
  | '+' :: cs => (anyNumber cs).map fun (n, cs) => ((n : Int), cs)
  | cs => (number 1 4 cs).map fun (n, cs) => ((n : Int), cs)

/-- Reads a number of one or two digits after white space, in a range. -/
def lenientPair (low high : Nat) : Step Nat := fun cs =>
  bounded low high (number 1 2) (Unicode.trimStart cs)

/-- Reads a date. -/
def lenientDate : Step Date := fun cs => do
  let (year, cs) ← lenientYear cs
  let cs ← literal '-' cs
  let (month, cs) ← lenientPair 1 12 cs
  let cs ← literal '-' cs
  let (day, cs) ← lenientPair 1 31 cs
  let d ← Date.ofParts? year month day
  some (d, cs)

/-- Reads a time of day: hours, minutes, seconds up to a leap second, and a fraction. -/
def lenientTime : Step (Nat × Nat × Nat) := fun cs => do
  let (hours, cs) ← lenientPair 0 23 cs
  let cs ← literal ':' cs
  let (minutes, cs) ← lenientPair 0 59 cs
  let cs ← literal ':' cs
  let (seconds, cs) ← lenientPair 0 60 cs
  let cs ← optionalFraction cs
  some ((hours, minutes, seconds), cs)

/-- Whether a step reads the whole text. -/
def readsAll {α : Type} (step : Step α) (cs : List Char) : Bool :=
  match step cs with
  | some (_, rest) => rest.isEmpty
  | none => false

/-- Whether a text is a date. -/
def isDate (cs : List Char) : Bool := readsAll lenientDate cs

/-- Reads a date whose numbers may have white space on both sides. -/
def spacedDate : Step Date := fun cs => do
  let (year, cs) ← lenientYear cs
  let cs ← literal '-' (Unicode.trimStart cs)
  let (month, cs) ← lenientPair 1 12 cs
  let cs ← literal '-' (Unicode.trimStart cs)
  let (day, cs) ← lenientPair 1 31 cs
  let d ← Date.ofParts? year month day
  some (d, Unicode.trimStart cs)

/-- Whether a text is a date with white space anywhere between its parts. -/
def isSpacedDate (cs : List Char) : Bool := readsAll spacedDate cs

/-- Whether a text is a time of day. -/
def isTime (cs : List Char) : Bool := readsAll lenientTime cs

/-- Reads a date and a time with a `T` between them. -/
def joinedByT : Step (Nat × Nat × Nat) := fun cs => do
  let (_, cs) ← lenientDate cs
  let cs ← literal 'T' cs
  lenientTime cs

/-- Reads a date and a time with white space between them, which may be missing. -/
def joinedByBlank : Step (Nat × Nat × Nat) := fun cs => do
  let (_, cs) ← lenientDate cs
  lenientTime (Unicode.trimStart cs)

/-- Whether a text is a timestamp without an offset. -/
def isLocalTimestamp (cs : List Char) : Bool := readsAll joinedByT cs || readsAll joinedByBlank cs

end ChangeCapture.Calendar
