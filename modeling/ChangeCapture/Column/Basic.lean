import ChangeCapture.Column.Kind
import ChangeCapture.Json.Basic

/-!
# Columns

A column of a buffered table with what is known about it.
-/

namespace ChangeCapture

/-- A column of a table. -/
structure Column where
  /-- The name. -/
  name : String
  /-- The kind. -/
  kind : ColumnKind
  /-- Whether the column is part of the primary key. -/
  primaryKey : Bool
  /-- Whether the source left out the value of the column at least once. -/
  toasted : Bool
  /-- Whether the destination has filled the default value into earlier rows. -/
  backfilled : Bool
  /-- The default value. -/
  default? : Option Json
  deriving Inhabited, Repr

namespace Column

/-- A column of which only the name and the kind are known. -/
def new (name : String) (kind : ColumnKind) : Column := ⟨name, kind, false, false, false, none⟩

/-- Whether the column has no kind yet and must not be written. -/
def isSkipped (c : Column) : Bool := c.kind == .invalid

/-- Whether the destination still has to fill the default value into earlier rows. -/
def needsBackfill (c : Column) : Bool :=
  !c.primaryKey && !c.isSkipped && c.default?.isSome && !c.backfilled

end Column

/-- Marks to set on a column.  A mark that is `none` stays as it is. -/
structure ColumnMarks where
  /-- The new value of `toasted`. -/
  toasted : Option Bool
  /-- The new value of `primaryKey`. -/
  primaryKey : Option Bool
  /-- The new value of `backfilled`. -/
  backfilled : Option Bool
  deriving DecidableEq, Repr

namespace ColumnMarks

/-- No marks. -/
def none : ColumnMarks := ⟨.none, .none, .none⟩

/-- The mark of a primary key. -/
def asPrimaryKey : ColumnMarks := { none with primaryKey := some true }

/-- The mark of a column whose value was left out. -/
def asToasted : ColumnMarks := { none with toasted := some true }

/-- Sets the marks on a column. -/
def applyTo (m : ColumnMarks) (c : Column) : Column :=
  { c with
    toasted := m.toasted.getD c.toasted
    primaryKey := m.primaryKey.getD c.primaryKey
    backfilled := m.backfilled.getD c.backfilled }

end ColumnMarks

end ChangeCapture
