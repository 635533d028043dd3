import ChangeCapture.Column.Basic
import ChangeCapture.Fault

/-!
# Column registries

The columns of a table in the order in which they were first seen.  A name is
never empty and stands once.  A kind is only ever set over the invalid kind
(`ColumnRegistry.upgrade`).
-/

namespace ChangeCapture

/-- The columns of a table. -/
structure ColumnRegistry where
  /-- The columns in order. -/
  columns : List Column
  deriving Inhabited, Repr

namespace ColumnRegistry

/-- The registry without columns. -/
def empty : ColumnRegistry := ⟨[]⟩

instance : EmptyCollection ColumnRegistry := ⟨empty⟩

/-- The number of columns. -/
def size (r : ColumnRegistry) : Nat := r.columns.length

/-- Whether there is no column. -/
def isEmpty (r : ColumnRegistry) : Bool := r.columns.isEmpty

/-- The names in order. -/
def names (r : ColumnRegistry) : List String := r.columns.map Column.name

/-- The columns that have a kind. -/
def writable (r : ColumnRegistry) : List Column := r.columns.filter fun c => !c.isSkipped

/-- The column of a name. -/
def get? (r : ColumnRegistry) (name : String) : Option Column :=
  r.columns.find? (·.name == name)

/-- Adds a column at the end, unless its name is empty or taken. -/
def add (r : ColumnRegistry) (c : Column) : ColumnRegistry :=
  if c.name.isEmpty || (r.get? c.name).isSome then r else ⟨r.columns ++ [c]⟩

/-- Adds columns one after the other. -/
def addAll (r : ColumnRegistry) (cs : List Column) : ColumnRegistry := cs.foldl add r

/-- The registry of a list of columns. -/
def ofList (cs : List Column) : ColumnRegistry := empty.addAll cs

/-- Replaces the first column that bears a name by its image. -/
def modify (r : ColumnRegistry) (name : String) (f : Column → Column) : ColumnRegistry :=
  ⟨go r.columns⟩
where
  /-- The columns from some place on. -/
  go : List Column → List Column
    | [] => []
    | c :: rest => if c.name == name then f c :: rest else c :: go rest

/-- Replaces the column of the same name, if there is one. -/
def update (r : ColumnRegistry) (c : Column) : ColumnRegistry := r.modify c.name fun _ => c

/-- Whether `upgrade` sets a kind. -/
def upgrades (r : ColumnRegistry) (name : String) (kind : ColumnKind) : Bool :=
  kind != .invalid && (r.get? name).any Column.isSkipped

/-- Sets the kind of a column that has none yet. -/
def upgrade (r : ColumnRegistry) (name : String) (kind : ColumnKind) : ColumnRegistry :=
  if r.upgrades name kind then r.modify name fun c => { c with kind := kind } else r

/-- Sets marks on a column, which is added without a kind if it is not there.  The name must not
be empty. -/
def mark (r : ColumnRegistry) (name : String) (marks : ColumnMarks) : Outcome ColumnRegistry :=
  if name.isEmpty then .error (.plain .invalidData "Column name is empty")
  else if (r.get? name).isSome then .ok (r.modify name marks.applyTo)
  else .ok ⟨r.columns ++ [marks.applyTo (.new name .invalid)]⟩

/-- Removes the column of a name. -/
def erase (r : ColumnRegistry) (name : String) : ColumnRegistry :=
  ⟨r.columns.filter (·.name != name)⟩

end ColumnRegistry

end ChangeCapture
