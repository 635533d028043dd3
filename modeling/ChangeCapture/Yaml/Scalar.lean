import ChangeCapture.Binary64.Decimal
import ChangeCapture.Json.Syntax
import ChangeCapture.Text.Integer
import ChangeCapture.Yaml.Node

/-!
# What scalars stand for

A plain scalar without a tag is a truth value, a number or nothing if it looks
like one, and else a text.  A tag of the core says which of these it is.
-/

namespace ChangeCapture.Yaml

/-! ## Looks -/

/-- The integer that digits of a base stand for.  A sign may stand in front. -/
def inBase? (base : Nat) (cs : List Char) : Option Int := do
  let (negative, cs) := match cs with
    | '-' :: cs => (true, cs)
    | '+' :: cs => (false, cs)
    | cs => (false, cs)
  let digits ← cs.mapM Json.hexDigit?
  let n := digits.foldl (fun n d => base * n + d) 0
  if digits.isEmpty || digits.any (base ≤ ·) then none
  else if negative then if n ≤ 1 <<< 63 then some (-n) else none
  else if n < 1 <<< 63 then some n else none

/-- The integer that a plain scalar looks like.  A plus sign may stand before a signed integer. -/
def integer? (s : String) : Option Int :=
  match s.toList with
  | '0' :: 'x' :: cs => inBase? 16 cs
  | '0' :: 'o' :: cs => inBase? 8 cs
  | '+' :: cs => Text.int64? (String.ofList cs)
  | _ => Text.int64? s

/-- Other spellings of infinity, and of what is no number. -/
def dottedNumerals : List String := [
  ".inf", ".Inf", ".INF", "+.inf", "+.Inf", "+.INF", "-.inf", "-.Inf", "-.INF", ".nan", ".NAN"]

/-- Whether a plain scalar looks like a number. -/
def isNumeral (s : String) : Bool :=
  dottedNumerals.contains s || (Binary64.readNumeral s).isSome

/-- What a plain scalar looks like. -/
def Node.ofPlain (s : String) : Node :=
  match s with
  | "~" | "null" => .null
  | "true" => .flag true
  | "false" => .flag false
  | _ =>
    match integer? s with
    | some n => .integer n
    | none => if isNumeral s then .real s else .text s

/-! ## Tags -/

/-- What a tag says of a scalar. -/
inductive Tagging where
  /-- That it is a tag of the core. -/
  | core (suffix : String)
  /-- Nothing but that the scalar is not what it looks like. -/
  | other
  deriving DecidableEq, Repr

/-- What the handle of the tags of the core stands for. -/
def coreStem : String := "tag:yaml.org,2002:"

/-- What a tag says, where `stems` tells what handles stand for.  Only the handles `!` and `!!` need
no directive. -/
def tagging? (stems : List (String × String)) (handle suffix : String) : Option Tagging :=
  match stems.lookup handle with
  | some stem => some (if stem = coreStem then .core suffix else .other)
  | none =>
    if handle = "!!" then some (.core suffix)
    else if 2 ≤ handle.length && handle.endsWith "!" then none
    else some .other

/-- What a plain scalar with a tag stands for. -/
def Node.ofTagged (s : String) : Tagging → Node
  | .core "bool" => if s = "true" then .flag true else if s = "false" then .flag false else .bad
  | .core "int" => (Text.int64? s).elim .bad .integer
  | .core "float" => if isNumeral s then .real s else .bad
  | .core "null" => if s = "~" || s = "null" then .null else .bad
  | _ => .text s

/-- What a plain scalar stands for. -/
def Node.ofScalar (tag : Option Tagging) (s : String) : Node :=
  match tag with
  | some t => .ofTagged s t
  | none => .ofPlain s

end ChangeCapture.Yaml
