import ChangeCapture.Unicode.Blank
import ChangeCapture.Unicode.Lowercase

/-!
# Column names

A column name in the form that every destination takes: lower case, no blanks,
no digit in front.
-/

namespace ChangeCapture.ColumnName

/-- Writes each run of blanks as `__`.  `inRun` tells whether the text stands inside a run. -/
def joinBlanks (inRun : Bool) : List Char → List Char
  | [] => []
  | c :: rest =>
    if Unicode.isBlank c then
      if inRun then joinBlanks true rest else '_' :: '_' :: joinBlanks true rest
    else c :: joinBlanks false rest

/-- Writes `col_` before a leading digit. -/
def guardDigit (cs : List Char) : List Char :=
  match cs with
  | c :: _ => if c.isDigit then 'c' :: 'o' :: 'l' :: '_' :: cs else cs
  | [] => []

/-- The normal form of a name: lower-cased, blanks joined, a leading digit guarded. -/
def normalize (name : String) : String :=
  String.ofList (guardDigit (joinBlanks false (Unicode.lowercase name).toList))

end ChangeCapture.ColumnName
