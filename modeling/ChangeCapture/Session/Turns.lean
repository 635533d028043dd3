import ChangeCapture.SortedMap

/-!
# Turns

Workers that need the same thing take turns at it.  The first of those that
asked for it has it, and the others follow in the order in which they asked.
-/

namespace ChangeCapture

/-- The number of a worker. -/
abbrev WorkerId := Nat

/-- The workers that asked for each thing and have not given it back, in order. -/
abbrev Turns (ρ : Type) [Ord ρ] := SortedMap ρ (List WorkerId)

namespace Turns

variable {ρ : Type} [Ord ρ]

/-- Those that asked for a thing. -/
def line (ts : Turns ρ) (r : ρ) : List WorkerId := ts.getD r []

/-- The worker that has a thing. -/
def holder? (ts : Turns ρ) (r : ρ) : Option WorkerId := (ts.line r).head?

/-- Whether a worker has a thing. -/
def has (ts : Turns ρ) (r : ρ) (w : WorkerId) : Bool := ts.holder? r == some w

/-- Whether nobody has a thing. -/
def isFree (ts : Turns ρ) (r : ρ) : Bool := (ts.line r).isEmpty

variable [Std.TransOrd ρ]

/-- Asks for a thing. -/
def ask (ts : Turns ρ) (r : ρ) (w : WorkerId) : Turns ρ := ts.insert r (ts.line r ++ [w])

/-- Gives a thing to the next in line. -/
def pass (ts : Turns ρ) (r : ρ) : Turns ρ := ts.insert r (ts.line r).tail

end Turns

end ChangeCapture
