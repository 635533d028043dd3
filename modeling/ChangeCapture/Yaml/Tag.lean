import ChangeCapture.Json.Syntax
import ChangeCapture.Yaml.Place
import ChangeCapture.Yaml.Token

/-!
# Tags, anchors and directives

What may stand before a node: a tag, which says how its text is understood, and
an anchor, by which it can be referred to.  Directives stand before a document
and give the version of the language and the handles of tags.
-/

namespace ChangeCapture.Yaml

/-! ## Characters of tags -/

/-- Whether a character may stand in an address. -/
def isAddressChar (c : Char) : Bool :=
  c.isAlphanum || "-#;/?:@&=+$,_.!~*\x27()[]%".toList.contains c

/-- Whether a character may stand in a tag. -/
def isTagChar (c : Char) : Bool := isAddressChar c && !isFlowMark c && c != '!'

/-- The number of bytes that a first byte announces. -/
def byteCount? (b : Nat) : Option Nat :=
  if b < 0x80 then some 1
  else if b < 0xc0 then none
  else if b < 0xe0 then some 2
  else if b < 0xf0 then some 3
  else if b < 0xf8 then some 4
  else none

/-- A byte as a percent sign and two hexadecimal digits. -/
def byte? : Reader Nat := fun p =>
  match p.rest with
  | '%' :: a :: b :: _ => do some (16 * (← Json.hexDigit? a) + (← Json.hexDigit? b), p.take 3)
  | _ => none

/-- More bytes of a character, of which `code` is the beginning. -/
def moreBytes? : Nat → Nat → Reader Nat
  | 0, code, p => some (code, p)
  | n + 1, code, p => do
    let (b, q) ← byte? p
    if 0x80 ≤ b ∧ b < 0xc0 then moreBytes? n (256 * code + b) q else none

/-- The character of some bytes, whose number the first one announces.  Its code is the number that
the bytes spell. -/
def percent? : Reader Char := fun p => do
  let (b, q) ← byte? p
  let count ← byteCount? b
  let (code, q) ← moreBytes? (count - 1) b q
  if code.isValidChar then some (Char.ofNat code, q) else none

/-- The characters of a kind at a place, some of them written as bytes. -/
def address? (kind : Char → Bool) : Nat → Reader (List Char)
  | 0, _ => none
  | fuel + 1, p =>
    if !kind p.char then some ([], p)
    else do
      let (c, q) ← if p.char == '%' then percent? p else some (p.char, p.take 1)
      let (cs, q) ← address? kind fuel q
      some (c :: cs, q)

/-! ## Tags -/

/-- The handle at a place: an exclamation mark, a name, and another exclamation mark if there is
one. -/
def handle? : Reader (List Char) := fun p =>
  if p.char != '!' then none
  else
    let (cs, q) := (p.take 1).span isNameChar
    if q.char == '!' then some ('!' :: cs ++ ['!'], q.take 1) else some ('!' :: cs, q)

/-- Whether what was read as a handle has an exclamation mark on both sides. -/
def isClosed (handle : List Char) : Bool := 2 ≤ handle.length && handle.getLast? == some '!'

/-- A tag between angle brackets. -/
def verbatimTag? : Reader Token := fun p => do
  let (cs, q) ← address? isAddressChar (p.left + 1) (p.take 2)
  if q.char == '>' then some (.tag "" (String.ofList cs), q.take 1) else none

/-- A tag with a handle.  What has no second exclamation mark belongs to the handle `!`. -/
def shortTag? : Reader Token := fun p => do
  let (handle, q) ← handle? p
  let (cs, q) ← address? isTagChar (q.left + 1) q
  if isClosed handle then
    if cs.isEmpty then none else some (.tag (String.ofList handle) (String.ofList cs), q)
  else
    let suffix := handle.drop 1 ++ cs
    if suffix.isEmpty then some (.tag "" "!", q) else some (.tag "!" (String.ofList suffix), q)

/-- The tag at a place. -/
def tag? (inFlow : Bool) : Reader Token := fun p => do
  let (t, q) ← if p.next == '<' then verbatimTag? p else shortTag? p
  if endsWord q.char || inFlow && isFlowMark q.char then some (t, q) else none

/-! ## Anchors -/

/-- The name of an anchor, after the mark before it. -/
def anchorName? : Reader String := fun p =>
  let (cs, q) := (p.take 1).span fun c => !endsWord c && !isFlowMark c
  if cs.isEmpty then none else some (String.ofList cs, q)

/-! ## Directives -/

/-- A number of at most nine digits. -/
def versionNumber? (p : Place) : Option Place :=
  let (cs, q) := p.span Char.isDigit
  if cs.isEmpty || 9 < cs.length then none else some q

/-- The version of the language. -/
def version? : Reader Token := fun p => do
  let q ← versionNumber? p.skipBlanks
  if q.char != '.' then none else some (.version, ← versionNumber? (q.take 1))

/-- The meaning of a handle. -/
def handleMeaning? : Reader Token := fun p => do
  let (handle, q) ← handle? p.skipBlanks
  if handle.length != 1 && !isClosed handle then none
  else
    let q := q.skipBlanks
    if q.char != '!' && !isTagChar q.char then none
    else
      let (first, q) ← if q.char == '%' then percent? q else some (q.char, q.take 1)
      let (cs, q) ← address? isAddressChar (q.left + 1) q
      if endsWord q.char then
        some (.handle (String.ofList handle) (String.ofList (first :: cs)), q)
      else none

/-- The directive at a place, with the beginning of the next line.  Unknown directives mean
nothing. -/
def directive? : Reader Token := fun p => do
  let (name, q) := (p.take 1).span isNameChar
  if name.isEmpty || !endsWord q.char then none
  else
    let (t, q) ←
      if name = "YAML".toList then version? q
      else if name = "TAG".toList then handleMeaning? q
      else some (.handle "" "", q.lineEnd)
    let q ← q.skipToLineEnd?
    if endsLine q.char then some (t, q.passBreak) else none

end ChangeCapture.Yaml
