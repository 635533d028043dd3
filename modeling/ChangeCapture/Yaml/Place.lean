/-!
# Places in a text

A reader of YAML walks over a text and has to know where it stands: on which
line, in which column, and whether anything but blanks stands before it on the
line.  A place holds that and what is left of the text.

At the end of a text a place shows the null character.  Texts are cut at their
first null character, so it shows it nowhere else.
-/

namespace ChangeCapture.Yaml

/-! ## Characters -/

/-- Whether a character breaks a line. -/
def isBreak (c : Char) : Bool := c == '\n' || c == '\r'

/-- Whether a character separates words. -/
def isBlank (c : Char) : Bool := c == ' ' || c == '\t'

/-- Whether a character stands at the end of a line. -/
def endsLine (c : Char) : Bool := isBreak c || c == '\x00'

/-- Whether a character stands after a word. -/
def endsWord (c : Char) : Bool := isBlank c || endsLine c

/-- Whether a character is a mark of flow style. -/
def isFlowMark (c : Char) : Bool := ",[]\x7b\x7d".toList.contains c

/-- Whether a character may stand in a short name. -/
def isNameChar (c : Char) : Bool := c.isAlphanum || c == '_' || c == '-'

/-! ## Places -/

/-- A place in a text. -/
structure Place where
  /-- The number of characters of the text. -/
  size : Nat
  /-- What is left of the text. -/
  rest : List Char
  /-- The number of characters before the place. -/
  index : Nat
  /-- The number of lines before the place. -/
  line : Nat
  /-- The number of characters before the place on its line. -/
  column : Nat
  /-- Whether nothing but blanks stands before the place on its line. -/
  fresh : Bool
  deriving Repr

namespace Place

/-- The beginning of a text, which ends at its first null character. -/
def start (s : String) : Place :=
  let cs := s.toList.takeWhile (· != '\x00')
  ⟨cs.length, cs, 0, 0, 0, true⟩

/-- The character at a place. -/
def char (p : Place) : Char := p.rest.headD '\x00'

/-- The character after the one at a place. -/
def next (p : Place) : Char := (p.rest.drop 1).headD '\x00'

/-- Whether a place is the end of the text. -/
def isEnd (p : Place) : Bool := p.rest.isEmpty

/-- The number of characters from a place on. -/
def left (p : Place) : Nat := p.size - p.index

/-- The place behind some blanks, or behind the rest of a line. -/
def skip (n : Nat) (p : Place) : Place :=
  { p with rest := p.rest.drop n, index := p.index + n, column := p.column + n }

/-- The place behind some characters that are no blanks. -/
def take (n : Nat) (p : Place) : Place := { p.skip n with fresh := false }

/-- The beginning of the next line.  A carriage return and a line feed break a line together. -/
def nextLine (p : Place) : Place :=
  match p.rest with
  | '\r' :: '\n' :: rest => ⟨p.size, rest, p.index + 2, p.line + 1, 0, true⟩
  | _ :: rest => ⟨p.size, rest, p.index + 1, p.line + 1, 0, true⟩
  | [] => p

/-- The beginning of the next line, if the place is at the end of a line. -/
def passBreak (p : Place) : Place := if isBreak p.char then p.nextLine else p

/-- The characters from a place on that are of a kind, and the place behind them. -/
def span (p : Place) (kind : Char → Bool) : List Char × Place :=
  let cs := p.rest.takeWhile kind
  (cs, p.take cs.length)

/-- The place behind all blanks. -/
def skipBlanks (p : Place) : Place := p.skip (p.rest.takeWhile isBlank).length

/-- The place behind all spaces. -/
def skipSpaces (p : Place) : Place := p.skip (p.rest.takeWhile (· == ' ')).length

/-- The end of the line. -/
def lineEnd (p : Place) : Place := p.skip (p.rest.takeWhile fun c => !endsLine c).length

/-- The place behind blanks and a comment, which needs a blank before it. -/
def skipToLineEnd? (p : Place) : Option Place :=
  let q := p.skipBlanks
  if q.char == '#' then if q.index = p.index then none else some q.lineEnd else some q

/-- Whether a mark of three equal characters stands at a place. -/
def hasMark (c : Char) (p : Place) : Bool :=
  [c, c, c].isPrefixOf p.rest && endsWord ((p.rest.drop 3).headD '\x00')

/-- Whether a place is at a mark that begins or ends a document. -/
def isDocumentMark (p : Place) : Bool := p.column = 0 && (p.hasMark '-' || p.hasMark '.')

end Place

/-- What is read at a place, with the place behind it. -/
abbrev Reader (α : Type) := Place → Option (α × Place)

end ChangeCapture.Yaml
