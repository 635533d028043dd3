/-!
# JSON syntax

The grammar of JSON texts, without any limit on depth, range or pairing.  A
text is read into a tree that keeps numerals and escapes as written, so that
"is this JSON?" and "which value is this?" share one grammar.

A parser step takes the characters that are left and returns what it read with
the characters after it.  The steps that nest take fuel.  Each of them consumes
a character before it nests, so the length of the text is enough
(`Json.Tree.read?`).
-/

namespace ChangeCapture.Json

/-- A numeral as written. -/
structure NumberText where
  /-- Whether a minus sign stands in front. -/
  negative : Bool
  /-- The digits before the point. -/
  whole : List Char
  /-- The digits after the point, if there is one. -/
  fraction : Option (List Char)
  /-- The sign and the digits of the exponent, if there is one. -/
  exponent : Option (Bool × List Char)

/-- A piece of a string: a character, or a 16-bit unit that was escaped in hexadecimal. -/
inductive Piece where
  /-- A character, written or escaped by a letter. -/
  | char (c : Char)
  /-- An escaped unit. -/
  | unit (n : Nat)

/-- A JSON text as a tree. -/
inductive Tree where
  /-- The word "null". -/
  | null
  /-- The word "true" or "false". -/
  | bool (b : Bool)
  /-- A numeral. -/
  | number (n : NumberText)
  /-- A string. -/
  | string (pieces : List Piece)
  /-- An array. -/
  | array (items : List Tree)
  /-- An object, with its fields as written. -/
  | object (fields : List (List Piece × Tree))

/-! ## Lexemes -/

/-- The four characters that may stand between lexemes. -/
def isSpace (c : Char) : Bool := c == ' ' || c == '\n' || c == '\t' || c == '\r'

/-- The text without the space before it. -/
def skipSpace (cs : List Char) : List Char := cs.dropWhile isSpace

/-- The rest of a text that begins with a given word. -/
def afterWord? (word : String) (cs : List Char) : Option (List Char) :=
  if word.toList.isPrefixOf cs then some (cs.drop word.length) else none

/-- Reads one or more digits. -/
def digits? (cs : List Char) : Option (List Char × List Char) :=
  let (ds, rest) := cs.span Char.isDigit
  if ds.isEmpty then none else some (ds, rest)

/-- Reads the digits before the point.  A zero stands alone. -/
def whole? : List Char → Option (List Char × List Char)
  | '0' :: c :: rest => if c.isDigit then none else some (['0'], c :: rest)
  | ['0'] => some (['0'], [])
  | cs => digits? cs

/-- Reads a point with its digits, if there is one. -/
def fraction? : List Char → Option (Option (List Char) × List Char)
  | '.' :: cs => (digits? cs).map fun (ds, rest) => (some ds, rest)
  | cs => some (none, cs)

/-- Reads an exponent, if there is one.  The sign is whether it is a minus. -/
def exponent? : List Char → Option (Option (Bool × List Char) × List Char)
  | c :: cs =>
    if c = 'e' ∨ c = 'E' then
      let (negative, cs) := match cs with
        | '-' :: cs => (true, cs)
        | '+' :: cs => (false, cs)
        | cs => (false, cs)
      (digits? cs).map fun (ds, rest) => (some (negative, ds), rest)
    else some (none, c :: cs)
  | [] => some (none, [])

/-- Reads a numeral. -/
def number? (cs : List Char) : Option (NumberText × List Char) := do
  let (negative, cs) := match cs with
    | '-' :: cs => (true, cs)
    | cs => (false, cs)
  let (whole, cs) ← whole? cs
  let (fraction, cs) ← fraction? cs
  let (exponent, cs) ← exponent? cs
  some (⟨negative, whole, fraction, exponent⟩, cs)

/-- The value of a hexadecimal digit. -/
def hexDigit? (c : Char) : Option Nat :=
  if '0' ≤ c ∧ c ≤ '9' then some (c.toNat - '0'.toNat)
  else if 'a' ≤ c ∧ c ≤ 'f' then some (c.toNat - 'a'.toNat + 10)
  else if 'A' ≤ c ∧ c ≤ 'F' then some (c.toNat - 'A'.toNat + 10)
  else none

/-- The character that a letter stands for after a backslash. -/
def escape? : Char → Option Char
  | '"' => some '"'
  | '\\' => some '\\'
  | '/' => some '/'
  | 'b' => some (Char.ofNat 0x08)
  | 'f' => some (Char.ofNat 0x0c)
  | 'n' => some '\n'
  | 'r' => some '\r'
  | 't' => some '\t'
  | _ => none

/-- Reads the pieces of a string whose opening quote is read, up to the closing quote. -/
def pieces? (acc : List Piece) : List Char → Option (List Piece × List Char)
  | [] => none
  | '"' :: rest => some (acc.reverse, rest)
  | '\\' :: 'u' :: a :: b :: c :: d :: rest =>
    match hexDigit? a, hexDigit? b, hexDigit? c, hexDigit? d with
    | some a, some b, some c, some d =>
      pieces? (.unit (((a * 16 + b) * 16 + c) * 16 + d) :: acc) rest
    | _, _, _, _ => none
  | '\\' :: c :: rest =>
    match escape? c with
    | some e => pieces? (.char e :: acc) rest
    | none => none
  | c :: rest => if c.toNat < 0x20 ∨ c = '\\' then none else pieces? (.char c :: acc) rest

/-! ## Values -/

mutual

/-- Reads a value after any space. -/
def value? : Nat → List Char → Option (Tree × List Char)
  | 0, _ => none
  | fuel + 1, cs =>
    match skipSpace cs with
    | '"' :: rest => (pieces? [] rest).map fun (ps, rest) => (.string ps, rest)
    | '[' :: rest =>
      match skipSpace rest with
      | ']' :: rest => some (.array [], rest)
      | rest => (items? fuel [] rest).map fun (items, rest) => (.array items, rest)
    | '\x7b' :: rest =>
      match skipSpace rest with
      | '\x7d' :: rest => some (.object [], rest)
      | rest => (fields? fuel [] rest).map fun (fields, rest) => (.object fields, rest)
    | 'n' :: rest => (afterWord? "ull" rest).map fun rest => (.null, rest)
    | 't' :: rest => (afterWord? "rue" rest).map fun rest => (.bool true, rest)
    | 'f' :: rest => (afterWord? "alse" rest).map fun rest => (.bool false, rest)
    | cs => (number? cs).map fun (n, rest) => (.number n, rest)

/-- Reads the items of an array up to its closing bracket. -/
def items? : Nat → List Tree → List Char → Option (List Tree × List Char)
  | 0, _, _ => none
  | fuel + 1, acc, cs =>
    match value? fuel cs with
    | none => none
    | some (v, rest) =>
      match skipSpace rest with
      | ',' :: rest => items? fuel (v :: acc) rest
      | ']' :: rest => some ((v :: acc).reverse, rest)
      | _ => none

/-- Reads the fields of an object up to its closing brace. -/
def fields? : Nat → List (List Piece × Tree) → List Char →
    Option (List (List Piece × Tree) × List Char)
  | 0, _, _ => none
  | fuel + 1, acc, cs =>
    match skipSpace cs with
    | '"' :: rest =>
      match pieces? [] rest with
      | none => none
      | some (name, rest) =>
        match skipSpace rest with
        | ':' :: rest =>
          match value? fuel rest with
          | none => none
          | some (v, rest) =>
            match skipSpace rest with
            | ',' :: rest => fields? fuel ((name, v) :: acc) rest
            | '\x7d' :: rest => some (((name, v) :: acc).reverse, rest)
            | _ => none
        | _ => none
    | _ => none

end

/-- Reads a whole text. -/
def Tree.read? (cs : List Char) : Option Tree :=
  match value? (cs.length + 1) cs with
  | some (t, rest) => if (skipSpace rest).isEmpty then some t else none
  | none => none

end ChangeCapture.Json
