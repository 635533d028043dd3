import ChangeCapture.Yaml.Gap

/-!
# Plain scalars

A plain scalar has no quotes.  It ends before a colon that ends a word, before a
comment, before a mark of flow style if it stands between brackets, and outside
brackets at a line with less indentation.
-/

namespace ChangeCapture.Yaml.Plain

/-- Whether the character at a place may belong to a plain scalar. -/
def continues (inFlow : Bool) (p : Place) : Bool :=
  if p.char == ':' then !(endsWord p.next || inFlow && isFlowMark p.next)
  else !endsWord p.char && !(inFlow && isFlowMark p.char)

/-- The word at a place. -/
def word (inFlow : Bool) : Nat → Place → List Char × Place
  | 0, p => ([], p)
  | fuel + 1, p =>
    if continues inFlow p then
      let (cs, q) := word inFlow fuel (p.take 1)
      (p.char :: cs, q)
    else ([], p)

/-- A tab may indent only a line without content. -/
def tab? (least : Int) (p : Place) : Option Place :=
  if p.column < least then do
    let q ← p.skipToLineEnd?
    if endsLine q.char then some q else none
  else some (p.skip 1)

/-- The words from a place on, where `acc` is what was read before and `gap` stands between.  Lines
that go on with the scalar have at least `least` columns before them. -/
def words? (inFlow : Bool) (least : Int) : Nat → List Char → Gap → Reader (List Char)
  | 0, _, _, _ => none
  | fuel + 1, acc, gap, p =>
    if p.isDocumentMark || p.char == '#' then some (acc, p)
    else if inFlow && p.char == '-' && isFlowMark p.next then none
    else
      let (cs, q) := word inFlow p.left p
      let acc := if cs.isEmpty then acc else if acc.isEmpty then cs else acc ++ gap.text ++ cs
      if isBlank q.char || isBreak q.char then do
        let (gap, q) ← Gap.read? (tab? least) (q.left + 1) .empty q
        if !inFlow && q.column < least then some (acc, q)
        else words? inFlow least fuel acc gap q
      else some (acc, q)

/-- The plain scalar at a place, in a block that is indented by `indent`. -/
def read? (inFlow : Bool) (indent : Int) : Reader String := fun p =>
  if inFlow && p.column < indent + 1 then none
  else do
    let (cs, q) ← words? inFlow (indent + 1) (p.left + 1) [] .empty p
    if cs.isEmpty then none else some (String.ofList cs, q)

end ChangeCapture.Yaml.Plain
