import ChangeCapture.Table.Window

/-!
# Destinations

A destination takes the rows of windows.  It tells what it knows about a table
and merges or appends the rows of a window.  Merging one window twice must not
do more than merging it once, since a merge may be tried again.
-/

namespace ChangeCapture

/-- What a destination knows about a table. -/
structure TableDescription where
  /-- The columns of the table. -/
  columns : ColumnRegistry
  /-- Whether the table is not there yet. -/
  isNew : Bool

/-- A kind of destination, as a state that operations change. -/
class Destination (δ : Type) where
  /-- What is known about a table. -/
  describe : δ → TablePath → Outcome TableDescription × δ
  /-- Merges rows by key.  The outcome tells whether their messages may be committed. -/
  merge : δ → Window → Outcome Bool × δ
  /-- Appends rows. -/
  append : δ → Window → Outcome Unit × δ

namespace Destination

variable {δ : Type} [Destination δ]

/-- Writes the rows of a window, by key or at the end as its mode says.  The outcome tells whether
their messages may be committed. -/
def write (d : δ) (w : Window) : Outcome Bool × δ :=
  match w.mode with
  | .replication => merge d w
  | .history =>
    let (outcome, d) := append d w
    (outcome.map fun () => true, d)

end Destination

end ChangeCapture
