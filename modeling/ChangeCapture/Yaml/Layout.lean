import ChangeCapture.Yaml.Place
import ChangeCapture.Yaml.Token

/-!
# The layout of a text

What a reader of tokens knows about the text before its place: the tokens, how
far the blocks around the place are indented, how many brackets are open, and
which token may turn out to begin the name of a field.  That is known only at
the colon, and then the marks before the name are put in.

A margin belongs to a block, or it is a loose one: one column more than a block,
for what must be indented but begins no block.
-/

namespace ChangeCapture.Yaml

/-- What may turn out to begin the name of a field. -/
structure Candidate where
  /-- Where it begins. -/
  place : Place
  /-- The number of tokens before it. -/
  number : Nat
  /-- Whether nothing but a name may stand there. -/
  required : Bool

/-- A change of the indentation. -/
structure Margin where
  /-- The indentation outside. -/
  outside : Int
  /-- Whether a block begins with it. -/
  isBlock : Bool
  deriving DecidableEq, Repr

/-- The layout of a text up to a place. -/
structure Layout where
  /-- The place. -/
  place : Place
  /-- The tokens before it, backwards. -/
  tokens : List Token
  /-- The indentation at the place, which is -1 outside all blocks. -/
  indent : Int
  /-- The margins around the place, innermost first. -/
  margins : List Margin
  /-- The number of open brackets. -/
  depth : Nat
  /-- Whether the name of a field may begin at the place. -/
  nameAllowed : Bool
  /-- What may begin a name, for each open bracket and outside of all, innermost first. -/
  candidates : List (Option Candidate)
  /-- The index at which a colon is the one of a field, even if no blank follows. -/
  valueIndex : Nat
  /-- Whether a brace or a question mark between brackets has marked a table. -/
  inTable : Bool
  /-- Whether the last colon began a table without braces, which the next comma or closing bracket
  ends. -/
  inPair : Bool

namespace Layout

/-- The layout at the beginning of a text. -/
def start (s : String) : Layout where
  place := .start s
  tokens := []
  indent := -1
  margins := []
  depth := 0
  nameAllowed := true
  candidates := [none]
  valueIndex := 0
  inTable := false
  inPair := false

/-- Whether the place is between brackets. -/
def inFlow (l : Layout) : Bool := l.depth != 0

/-! ## Tokens -/

/-- A layout with another token. -/
def push (t : Token) (l : Layout) : Layout := { l with tokens := t :: l.tokens }

/-- A layout with a token put in behind the first `number` tokens. -/
def insert (number : Nat) (t : Token) (l : Layout) : Layout :=
  let behind := l.tokens.length - number
  { l with tokens := l.tokens.take behind ++ t :: l.tokens.drop behind }

/-! ## Margins -/

/-- Ends the innermost margins while they are indented by more than `column`. -/
def unroll (column : Int) : List Margin → Layout → Layout
  | [], l => l
  | m :: ms, l =>
    if l.indent ≤ column then l
    else
      let l := { l with indent := m.outside, margins := ms }
      unroll column ms (if m.isBlock then l.push .blockEnd else l)

/-- Ends the blocks that are indented by more than `column`.  Between brackets none ends. -/
def endBlocks (column : Int) (l : Layout) : Layout :=
  if l.inFlow then l else unroll column l.margins l

/-- Drops the innermost margin if it is loose. -/
def dropLoose (l : Layout) : Layout :=
  match l.margins with
  | m :: ms => if m.isBlock then l else { l with indent := m.outside, margins := ms }
  | [] => l

/-- Adds a loose margin inside a block. -/
def addLoose (l : Layout) : Layout :=
  match l.margins with
  | m :: _ =>
    if !l.inFlow && m.isBlock then
      { l with indent := l.indent + 1, margins := ⟨l.indent, false⟩ :: l.margins }
    else l
  | [] => l

/-- Begins a block at a column, unless it goes on with one or is between brackets.  Its mark is put
in behind the first `number` tokens. -/
def beginBlock (column number : Nat) (t : Token) (l : Layout) : Layout :=
  if l.inFlow then l
  else
    let l := if l.indent ≤ column then l.dropLoose else l
    if l.indent < column then
      { l with indent := column, margins := ⟨l.indent, true⟩ :: l.margins }.insert number t
    else l

/-! ## Names -/

/-- Takes the next token for the possible beginning of a name, where a name is allowed. -/
def offer (l : Layout) : Layout :=
  if l.nameAllowed then
    let required := !l.inFlow && l.indent = l.place.column && l.margins.head?.any Margin.isBlock
    let c : Candidate := ⟨l.place, l.tokens.length, required⟩
    { l with candidates := some c :: l.candidates.tail }
  else l

/-- Gives up the innermost candidate, which must not be required. -/
def withdraw? (l : Layout) : Option Layout :=
  match l.candidates with
  | some c :: rest => if c.required then none else some { l with candidates := none :: rest }
  | _ => some l

/-- The number of characters between the beginning of a name and its colon. -/
def nameLimit : Nat := 1024

/-- Whether a candidate outside of brackets is too far from a place: on another line, or beyond the
limit. -/
def isStale (p : Place) (c : Candidate) : Bool :=
  c.place.line < p.line || c.place.index + nameLimit < p.index

/-- Gives up the candidates that are too far away, which must not be required. -/
def expire? (l : Layout) : Option Layout :=
  if l.inFlow then some l
  else if l.candidates.any fun c => c.any fun c => isStale l.place c && c.required then none
  else some { l with candidates := l.candidates.map fun c => c.filter fun c => !isStale l.place c }

/-! ## Brackets -/

/-- The largest number of brackets that may be open. -/
def depthLimit : Nat := 255

/-- Enters a bracket. -/
def enter? (l : Layout) : Option Layout :=
  if l.depth < depthLimit then
    some { l with depth := l.depth + 1, candidates := none :: l.candidates }
  else none

/-- Leaves a bracket, if one is open. -/
def leave (l : Layout) : Layout :=
  if l.inFlow then { l with depth := l.depth - 1, candidates := l.candidates.tail } else l

/-- Ends the table without braces that the last colon began, if it began one.  It is not told apart
from a table or list inside it: its end is put before the first comma or closing bracket, and it has
no end if another colon stands before that. -/
def endPair (l : Layout) : Layout :=
  if l.inPair then { l with inPair := false, inTable := false }.push .flowTableEnd else l

end Layout

end ChangeCapture.Yaml
