import ChangeCapture.Yaml.BlockText
import ChangeCapture.Yaml.Layout
import ChangeCapture.Yaml.Plain
import ChangeCapture.Yaml.Quoted
import ChangeCapture.Yaml.Tag

/-!
# The tokens of a text

A text is read token by token.  Each step passes over blanks, comments and line
breaks, ends the blocks that end there, and reads the token at the place.
-/

namespace ChangeCapture.Yaml

namespace Layout

/-- Moves to a place. -/
def moveTo (p : Place) (l : Layout) : Layout := { l with place := p }

/-- Passes over some characters. -/
def take (n : Nat) (l : Layout) : Layout := l.moveTo (l.place.take n)

/-- Passes over blanks and a comment, which needs a blank before it. -/
def toLineEnd? (l : Layout) : Option Layout := l.place.skipToLineEnd?.map fun p => l.moveTo p

/-- Passes over blanks, comments and line breaks.  A tab may not indent a block. -/
def toToken? : Nat → Layout → Option Layout
  | 0, _ => none
  | fuel + 1, l =>
    let p := l.place
    if p.char == '\t' && !l.margins.isEmpty && p.fresh && p.column < l.indent then do
      let l ← l.toLineEnd?
      if endsLine l.place.char then toToken? fuel l else none
    else if isBlank p.char then toToken? fuel (l.moveTo (p.skip 1))
    else if isBreak p.char then
      toToken? fuel { l with place := p.nextLine, nameAllowed := l.nameAllowed || !l.inFlow }
    else if p.char == '#' then toToken? fuel (l.moveTo p.lineEnd)
    else some l

/-! ## Marks of documents -/

/-- Reads a directive. -/
def directive? (l : Layout) : Option Layout := do
  let l ← (l.endBlocks (-1)).withdraw?
  let (t, p) ← Yaml.directive? l.place
  some ({ l with place := p, nameAllowed := false }.push t)

/-- Reads a mark that begins or ends a document. -/
def documentMark? (t : Token) (l : Layout) : Option Layout := do
  let l ← (l.endBlocks (-1)).withdraw?
  some (({ l with nameAllowed := false }.take 3).push t)

/-- Reads a mark that ends a document.  No more than a comment may stand behind it. -/
def documentEnd? (l : Layout) : Option Layout := do
  let l ← (← l.documentMark? .documentEnd).toLineEnd?
  if endsLine l.place.char then some l else none

/-! ## Marks of flow style -/

/-- Reads an opening bracket or brace. -/
def flowStart? (t : Token) (l : Layout) : Option Layout := do
  let l ← l.offer.addLoose.enter?
  let l := { l with nameAllowed := true }.take 1
  let l := if t = .flowTable then { l with inTable := true } else l
  some ((← l.toLineEnd?).push t)

/-- Reads a closing bracket or brace. -/
def flowEnd? (t : Token) (l : Layout) : Option Layout := do
  let l := { (← l.withdraw?).leave with nameAllowed := false }
  let l ← (l.endPair.take 1).toLineEnd?
  some ((if l.inFlow then { l with valueIndex := l.place.index } else l).push t)

/-- Reads a comma. -/
def comma? (l : Layout) : Option Layout := do
  let l := { ← l.withdraw? with nameAllowed := true }.endPair
  some ((← (l.take 1).toLineEnd?).push .comma)

/-! ## Marks of block style -/

/-- Whether tabs are among the blanks at a place. -/
def hasTab (p : Place) : Bool := (p.rest.takeWhile isBlank).contains '\t'

/-- Reads the dash before an item. -/
def dash? (l : Layout) : Option Layout :=
  if l.inFlow || !l.nameAllowed then none
  else do
    let column := l.place.column
    let l := l.take 1
    let l := l.beginBlock column l.tokens.length .blockList
    let tabbed := hasTab l.place
    let l ← l.toLineEnd?
    let p := l.place
    if tabbed && p.char == '-' && endsWord p.next then none
    else
      let l := if isBreak p.char || isFlowMark p.char then l.addLoose else l
      some ({ ← l.withdraw? with nameAllowed := true }.push .dash)

/-- Passes over spaces, comments and line breaks. -/
def toContent (fuel : Nat) (l : Layout) : Layout :=
  match fuel with
  | 0 => l
  | fuel + 1 =>
    let p := l.place
    if p.char == ' ' then toContent fuel (l.moveTo (p.skip 1))
    else if isBreak p.char then
      toContent fuel { l with place := p.nextLine, nameAllowed := l.nameAllowed || !l.inFlow }
    else if p.char == '#' then toContent fuel (l.moveTo p.lineEnd)
    else l

/-- Reads the question mark before a name. -/
def name? (l : Layout) : Option Layout :=
  if !l.inFlow && !l.nameAllowed then none
  else do
    let l :=
      if l.inFlow then { l with inTable := true }
      else l.beginBlock l.place.column l.tokens.length .blockTable
    let l := { ← l.withdraw? with nameAllowed := !l.inFlow }.take 1
    if l.place.char != ' ' && !isBreak l.place.char then none
    else
      let l := l.toContent (l.place.left + 1)
      if l.place.char == '\t' then none else some (l.push .name)

/-- Passes over the blanks behind a colon.  A word needs a space before it. -/
def behindColon? (l : Layout) : Option Layout :=
  if l.place.char != '\t' then some l
  else do
    let spaced := (l.place.rest.takeWhile isBlank).contains ' '
    let l ← l.toLineEnd?
    if !spaced && isNameChar l.place.char then none else some l

/-- Puts the marks before a name that is over. -/
def endName (c : Candidate) (l : Layout) : Layout :=
  let l := l.insert c.number .name
  let l := if l.inPair then l.insert c.number .flowTable else l
  let l := (l.beginBlock c.place.column c.number .blockTable).addLoose
  { l with candidates := none :: l.candidates.tail, nameAllowed := false }

/-- Reads the colon before a value.  The name of a table without braces begins on the line of its
colon. -/
def value? (l : Layout) : Option Layout := do
  let colon := l.place
  let l := { l with inPair := l.inFlow && !l.inTable }
  let l ← (l.take 1).behindColon?
  match l.candidates with
  | some c :: _ =>
    if l.inPair && c.place.line < colon.line then none else some ((l.endName c).push .value)
  | _ =>
    let l := if l.inPair then l.push .flowTable else l
    if !l.inFlow && !l.nameAllowed then none
    else
      let l := (l.beginBlock colon.column l.tokens.length .blockTable).addLoose
      some ({ l with nameAllowed := !l.inFlow }.push .value)

/-! ## Scalars and what stands before nodes -/

/-- Reads a token of a node that may begin a name. -/
def node? (read : Reader Token) (l : Layout) : Option Layout := do
  let (t, p) ← read l.place
  some ({ l.offer with place := p, nameAllowed := false }.push t)

/-- Reads the name of an anchor. -/
def anchor? (token : String → Token) (l : Layout) : Option Layout :=
  l.node? fun p => (anchorName? p).map fun (s, q) => (token s, q)

/-- Reads a scalar in quotes.  A colon behind it is the one of a field. -/
def quoted? (l : Layout) : Option Layout := do
  let (s, p) ← Quoted.read? l.inFlow l.indent l.place
  let l := { l.offer with place := p, nameAllowed := false }
  let l ← l.toToken? (p.left + 1)
  some ({ l with valueIndex := l.place.index }.push (.text s))

/-- Reads a literal or folded scalar. -/
def blockText? (folded : Bool) (l : Layout) : Option Layout := do
  let l := { l.offer with nameAllowed := true }.dropLoose
  let (s, p) ← BlockText.read? folded l.indent l.place
  some ((l.moveTo p).push (.text s))

/-- Reads a plain scalar.  A name may begin behind it if it ends on another line. -/
def plain? (l : Layout) : Option Layout := do
  let l := l.offer.dropLoose
  let (s, p) ← Plain.read? l.inFlow l.indent l.place
  some ({ l with place := p, nameAllowed := p.fresh }.push (.plain s))

/-! ## All tokens -/

/-- Whether the colon at a place is one between a name and a value. -/
def isValueMark (l : Layout) : Bool :=
  endsWord l.place.next
    || l.inFlow && (isFlowMark l.place.next || l.place.index = l.valueIndex)

/-- Reads the token at the place. -/
def token? (l : Layout) : Option Layout :=
  let p := l.place
  match p.char with
  | '[' => l.flowStart? .flowList
  | '\x7b' => l.flowStart? .flowTable
  | ']' => l.flowEnd? .flowListEnd
  | '\x7d' => l.flowEnd? .flowTableEnd
  | ',' => l.comma?
  | '-' => if endsWord p.next then l.dash? else l.plain?
  | '?' => if endsWord p.next then l.name? else l.plain?
  | ':' => if l.isValueMark then l.value? else l.plain?
  | '*' => l.anchor? .alias
  | '&' => l.anchor? .anchor
  | '!' => l.node? (tag? l.inFlow)
  | '|' => if l.inFlow then l.plain? else l.blockText? false
  | '>' => if l.inFlow then l.plain? else l.blockText? true
  | '\'' => l.quoted?
  | '"' => l.quoted?
  | '%' => none
  | '@' => none
  | '\x60' => none
  | _ => l.plain?

/-- Reads what begins at the place, which is not the end of the text. -/
def step? (l : Layout) : Option Layout :=
  let p := l.place
  if p.column = 0 && p.char == '%' then l.directive?
  else if p.column = 0 && p.hasMark '-' then l.documentMark? .documentStart
  else if p.column = 0 && p.hasMark '.' then l.documentEnd?
  else if p.column < l.indent then none
  else l.token?

/-- Reads all tokens from a place on.  Each step takes a character at least. -/
def tokens? : Nat → Layout → Option (List Token)
  | 0, _ => none
  | fuel + 1, l => do
    let l ← (← l.toToken? (l.place.left + 1)).expire?
    let l := l.endBlocks l.place.column
    if l.place.isEnd then
      if l.candidates.any fun c => c.any Candidate.required then none
      else some ((l.endBlocks (-1)).tokens.reverse)
    else tokens? fuel (← l.step?)

end Layout

/-- The tokens of a text. -/
def Token.ofText? (s : String) : Option (List Token) :=
  (Layout.start s).tokens? (s.length + 1)

end ChangeCapture.Yaml
