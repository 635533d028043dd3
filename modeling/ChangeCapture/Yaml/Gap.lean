import ChangeCapture.Yaml.Place

/-!
# Gaps between words

A scalar may go on over several lines.  Between two of its words a single line
break becomes a space, and of several breaks all but the first are kept.  Blanks
around breaks are dropped.
-/

namespace ChangeCapture.Yaml

/-- What stands between two words of a scalar. -/
structure Gap where
  /-- The blanks before the first line break. -/
  blanks : List Char
  /-- The number of line breaks. -/
  breaks : Nat
  deriving Repr

namespace Gap

/-- A gap with nothing in it. -/
def empty : Gap := ⟨[], 0⟩

/-- A gap with another blank, which counts only before the first line break. -/
def addBlank (g : Gap) (c : Char) : Gap :=
  if g.breaks = 0 then { g with blanks := g.blanks ++ [c] } else g

/-- A gap with another line break. -/
def addBreak (g : Gap) : Gap := { g with breaks := g.breaks + 1 }

/-- What a gap stands for. -/
def text (g : Gap) : List Char :=
  match g.breaks with
  | 0 => g.blanks
  | 1 => [' ']
  | n + 1 => List.replicate n '\n'

/-- What a gap after an escaped line break stands for. -/
def joinedText (g : Gap) : List Char := List.replicate (g.breaks - 1) '\n'

/-- The gap from a place on, of which `g` is the beginning.  What a tab at the beginning of a line
leads to is told by `tab?`. -/
def read? (tab? : Place → Option Place) : Nat → Gap → Reader Gap
  | 0, _, _ => none
  | fuel + 1, g, p =>
    if isBreak p.char then read? tab? fuel g.addBreak p.nextLine
    else if p.char == '\t' && g.breaks != 0 then (tab? p).bind (read? tab? fuel g)
    else if isBlank p.char then read? tab? fuel (g.addBlank p.char) (p.skip 1)
    else some (g, p)

end Gap

end ChangeCapture.Yaml
