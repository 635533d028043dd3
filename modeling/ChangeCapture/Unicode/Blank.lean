import ChangeCapture.Unicode.Ranges

/-!
# White space

The characters with the property `White_Space`, which are 25 in all, and the
removal of such characters at the ends of a text.
-/

namespace ChangeCapture.Unicode

/-- The characters with the property `White_Space`, as ranges. -/
def blankRanges : List (Nat × Nat) := [
  (0x09, 0x0d), (0x20, 0x20), (0x85, 0x85), (0xa0, 0xa0), (0x1680, 0x1680), (0x2000, 0x200a),
  (0x2028, 0x2029), (0x202f, 0x202f), (0x205f, 0x205f), (0x3000, 0x3000)]

/-- Whether a character is white space. -/
def isBlank (c : Char) : Bool := inRanges blankRanges c.toNat

/-- The text without the white space before it. -/
def trimStart (cs : List Char) : List Char := cs.dropWhile isBlank

/-- The text without the white space on both sides. -/
def trim (cs : List Char) : List Char := (trimStart (trimStart cs).reverse).reverse

/-- Whether a text is nothing but white space. -/
def isBlankText (s : String) : Bool := s.toList.all isBlank

end ChangeCapture.Unicode
