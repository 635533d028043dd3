import ChangeCapture.Json.Syntax
import ChangeCapture.Yaml.Gap

/-!
# Quoted scalars

Scalars in single quotes, where two quotes stand for one, and scalars in double
quotes, where a backslash escapes.  An escaped line break joins two lines.
-/

namespace ChangeCapture.Yaml.Quoted

/-! ## Escapes -/

/-- The character after a backslash that stands for itself or a control character. -/
def escaped? : Char → Option Char
  | '0' => some '\x00'
  | 'a' => some '\x07'
  | 'b' => some '\x08'
  | 't' => some '\t'
  | '\t' => some '\t'
  | 'n' => some '\n'
  | 'v' => some '\x0b'
  | 'f' => some '\x0c'
  | 'r' => some '\r'
  | 'e' => some '\x1b'
  | ' ' => some ' '
  | '"' => some '"'
  | '/' => some '/'
  | '\\' => some '\\'
  | 'N' => some (Char.ofNat 0x85)
  | '_' => some (Char.ofNat 0xa0)
  | 'L' => some (Char.ofNat 0x2028)
  | 'P' => some (Char.ofNat 0x2029)
  | _ => none

/-- The number of digits after a backslash and this character. -/
def escapeWidth? : Char → Option Nat
  | 'x' => some 2
  | 'u' => some 4
  | 'U' => some 8
  | _ => none

/-- The character that hexadecimal digits stand for. -/
def codePoint? (width : Nat) (cs : List Char) : Option Char := do
  let digits ← cs.mapM Json.hexDigit?
  let n := digits.foldl (fun n d => 16 * n + d) 0
  if digits.length = width ∧ n.isValidChar then some (Char.ofNat n) else none

/-- The character that an escape stands for. -/
def escape? : Reader Char := fun p =>
  match escaped? p.next, escapeWidth? p.next with
  | some c, _ => some (c, p.take 2)
  | none, some width =>
    (codePoint? width ((p.rest.drop 2).take width)).map (·, p.take (2 + width))
  | none, none => none

/-! ## Words -/

/-- The word at a place.  The flag tells whether an escaped line break ended it. -/
def word? (quote : Char) : Nat → Reader (List Char × Bool)
  | 0, _ => none
  | fuel + 1, p =>
    if endsWord p.char then some (([], false), p)
    else if p.char == quote && !(quote == '\'' && p.next == quote) then some (([], false), p)
    else if quote == '"' && p.char == '\\' && isBreak p.next then
      some (([], true), (p.take 1).nextLine)
    else do
      let (c, q) ←
        if quote == '"' && p.char == '\\' then escape? p
        else some (p.char, p.take (if p.char == quote then 2 else 1))
      let ((cs, joined), q) ← word? quote fuel q
      some ((c :: cs, joined), q)

/-- A tab may not indent a line. -/
def tab? (indent : Int) (p : Place) : Option Place :=
  if p.column < indent then none else some (p.skip 1)

/-- The words up to the quote, where `acc` is what was read before. -/
def words? (quote : Char) (indent : Int) : Nat → List Char → Reader (List Char)
  | 0, _, _ => none
  | fuel + 1, acc, p =>
    if p.isDocumentMark || p.isEnd || p.column < indent then none
    else do
      let ((cs, joined), q) ← word? quote (p.left + 1) p
      if q.char == quote then some (acc ++ cs, q.take 1)
      else
        let begun : Gap := if joined then Gap.empty.addBreak else .empty
        let (gap, q) ← Gap.read? (tab? indent) (q.left + 1) begun q
        words? quote indent fuel (acc ++ cs ++ if joined then gap.joinedText else gap.text) q

/-- Whether a place may stand behind a scalar that begins on a line: at the end of a line, or before
what may follow a scalar. -/
def mayFollow (inFlow : Bool) (line : Nat) (p : Place) : Bool :=
  endsLine p.char || (p.char == ':' && (inFlow || p.line = line))
    || inFlow && (p.char == ',' || p.char == ']' || p.char == '\x7d')

/-- The scalar in quotes at a place, in a block that is indented by `indent`. -/
def read? (inFlow : Bool) (indent : Int) : Reader String := fun p => do
  let (cs, q) ← words? p.char indent (p.left + 1) [] (p.take 1)
  let q ← q.skipToLineEnd?
  if mayFollow inFlow p.line q then some (String.ofList cs, q) else none

end ChangeCapture.Yaml.Quoted
