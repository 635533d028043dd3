import ChangeCapture.Unicode.CaseTable

/-!
# Lower case

The full lower-case form of a text.  Two characters need more than a table.
`U+0130` becomes two characters.  A capital sigma becomes the final sigma at
the end of a word: a cased character stands before it, none stands after it,
and case-ignorable characters in between do not count.
-/

namespace ChangeCapture.Unicode

/-- Whether a character is skipped when the context of a sigma is looked at. -/
def isCaseIgnorable (c : Char) : Bool := inRanges caseIgnorableRanges c.toNat

/-- Whether a character that is not case-ignorable has a case. -/
def isCased (c : Char) : Bool := inRanges casedRanges c.toNat

/-- Whether the first character that counts is cased. -/
def startsCased (cs : List Char) : Bool :=
  match cs.dropWhile isCaseIgnorable with
  | c :: _ => isCased c
  | [] => false

/-- The lower-case form of a character outside any context. -/
def lowerChar (c : Char) : List Char :=
  if c.toNat < 0x80 then [c.toLower]
  else if c.toNat = 0x130 then ['i', Char.ofNat 0x307]
  else match lowercaseRuns.find? fun r => r.holds c.toNat with
    | some r => [Char.ofNat (c.toNat + r.delta).toNat]
    | none => [c]

/-- The lower-case form of a text that follows `before`, which is given backwards. -/
def lowerAfter (before : List Char) : List Char → List Char
  | [] => []
  | c :: rest =>
    let form :=
      if c = 'Σ' then
        [if startsCased before && !startsCased rest then 'ς' else 'σ']
      else lowerChar c
    form ++ lowerAfter (c :: before) rest

/-- The lower-case form of a text. -/
def lowercase (s : String) : String := String.ofList (lowerAfter [] s.toList)

end ChangeCapture.Unicode
