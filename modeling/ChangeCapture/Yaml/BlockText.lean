import ChangeCapture.Yaml.Place

/-!
# Literal and folded scalars

A scalar in block style begins with a mark, a bar for a literal one and a
greater-than sign for a folded one, and its lines follow with more indentation.
A digit after the mark gives the indentation, and a sign tells what becomes of
the line breaks at the end.
-/

namespace ChangeCapture.Yaml.BlockText

/-- What becomes of the line breaks at the end. -/
inductive Chomping where
  /-- None is kept. -/
  | strip
  /-- One is kept. -/
  | clip
  /-- All are kept. -/
  | keep
  deriving DecidableEq, Repr

/-- What stands behind the mark. -/
structure Header where
  /-- What becomes of the line breaks at the end. -/
  chomping : Chomping
  /-- How much more the lines are indented than their block, if that is given. -/
  increment : Option Nat
  deriving Repr

/-- A sign, if there is one. -/
def sign (p : Place) : Chomping × Place :=
  if p.char == '+' then (.keep, p.take 1)
  else if p.char == '-' then (.strip, p.take 1)
  else (.clip, p)

/-- A digit other than zero, if there is a digit. -/
def digit? : Reader (Option Nat) := fun p =>
  if p.char == '0' then none
  else if p.char.isDigit then some (some (p.char.toNat - '0'.toNat), p.take 1)
  else some (none, p)

/-- The sign and the digit behind the mark, in any order. -/
def header? : Reader Header := fun p => do
  let (chomping, q) := sign p
  let (increment, q) ← digit? q
  let (chomping, q) := if chomping = .clip then sign q else (chomping, q)
  some (⟨chomping, increment⟩, q)

/-! ## Lines -/

/-- Passes over empty lines and over the indentation of the next line, up to `indent` columns.
Returns the number of lines. -/
def indentation (indent : Nat) : Nat → Place → Nat × Place
  | 0, p => (0, p)
  | fuel + 1, p =>
    let spaces := ((p.rest.take (indent - p.column)).takeWhile (· == ' ')).length
    let q := p.skip spaces
    if isBreak q.char then
      let (n, q) := indentation indent fuel q.nextLine
      (n + 1, q)
    else (0, q)

/-- Passes over empty lines and over all spaces before the next line.  Returns the number of lines
and the largest column. -/
def leading : Nat → Place → Nat × Nat × Place
  | 0, p => (0, p.column, p)
  | fuel + 1, p =>
    let q := p.skipSpaces
    if isBreak q.char then
      let (n, widest, r) := leading fuel q.nextLine
      (n + 1, max q.column widest, r)
    else (0, q.column, q)

/-- The text of `n` line breaks. -/
def breaks (n : Nat) : List Char := List.replicate n '\n'

/-- What stands between two lines: `n` is the number of empty ones, and the flags tell whether the
lines are folded and whether the lines before and after begin with a blank. -/
def joint (folded blankBefore blankAfter : Bool) (n : Nat) : List Char :=
  if folded && !blankBefore && !blankAfter then if n = 0 then [' '] else breaks n
  else breaks (n + 1)

/-- The rest of the lines after a line, with the breaks before them, the number of empty lines
behind them, and whether a break ends the last line. -/
def lines (folded : Bool) (indent : Nat) :
    Nat → Bool → Place → List Char × Nat × Bool × Place
  | 0, _, p => ([], 0, false, p)
  | fuel + 1, blankBefore, p =>
    if p.isEnd then ([], 0, false, p)
    else
      let (n, q) := indentation indent (p.left + 1) p.nextLine
      if q.column = indent && !q.isEnd then
        let content := q.rest.takeWhile fun c => !endsLine c
        let blankAfter := isBlank q.char
        let (cs, tail) := lines folded indent fuel blankAfter q.lineEnd
        (joint folded blankBefore blankAfter n ++ content ++ cs, tail)
      else ([], n, true, q)

/-- What becomes of the end of a scalar. -/
def ending (chomping : Chomping) (indent empty : Nat) (broken : Bool) (p : Place) : List Char :=
  if chomping = .strip then []
  else
    breaks (if broken then 1 else 0)
      ++ breaks (if p.isEnd && max indent 1 ≤ p.column then 1 else 0)
      ++ if chomping = .keep then breaks empty else []

/-- A scalar without lines at the end of a text.  The flag tells whether a break stands behind the
mark, and `empty` is the number of lines after it. -/
def emptyText (chomping : Chomping) (empty : Nat) (broken : Bool) : List Char :=
  if chomping = .strip || !broken then []
  else if chomping = .keep && empty != 0 then breaks empty
  else breaks 1

/-- The scalar whose mark is at a place, in a block that is indented by `indent`. -/
def read? (folded : Bool) (indent : Int) : Reader String := fun p => do
  let (header, q) ← header? (p.take 1)
  let q ← q.skipToLineEnd?
  if !endsLine q.char then none
  else
    let broken := isBreak q.char
    let q := q.passBreak
    if q.char == '\t' then none
    else
      let (margin, empty, q) := match header.increment with
        | some n =>
          let margin := (max indent 0).toNat + n
          (margin, indentation margin (q.left + 1) q)
        | none =>
          let (n, widest, q) := leading (q.left + 1) q
          (max widest (indent + 1).toNat, n, q)
      if q.isEnd then some (String.ofList (emptyText header.chomping empty broken), q)
      else if q.column < margin && indent < q.column then none
      else if q.column = margin then
        let content := q.rest.takeWhile fun c => !endsLine c
        let (cs, behind, broken, r) :=
          lines folded margin (q.left + 1) (isBlank q.char) q.lineEnd
        let tail := ending header.chomping margin behind broken r
        some (String.ofList (breaks empty ++ content ++ cs ++ tail), r)
      else
        let tail := ending header.chomping margin empty false q
        some (String.ofList tail, q)

end ChangeCapture.Yaml.BlockText
