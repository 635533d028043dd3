/-!
# Lines

Splitting a text at its line feeds.  A carriage return before a line feed goes
with it, and a line feed at the end opens no further line.
-/

namespace ChangeCapture.Text

/-- The line without the carriage return at its end. -/
def dropReturn (line : List Char) : List Char :=
  if line.getLast? = some '\r' then line.dropLast else line

/-- The lines of a text, of which `acc` is the beginning of the first, backwards. -/
def splitLines (acc : List Char) : List Char → List (List Char)
  | [] => if acc.isEmpty then [] else [acc.reverse]
  | c :: cs =>
    if c = '\n' then dropReturn acc.reverse :: splitLines [] cs else splitLines (c :: acc) cs

/-- The lines of a text. -/
def lines (s : String) : List String := (splitLines [] s.toList).map String.ofList

end ChangeCapture.Text
