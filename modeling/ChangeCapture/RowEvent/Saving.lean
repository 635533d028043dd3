import ChangeCapture.Column.Name
import ChangeCapture.RowEvent.Basic
import ChangeCapture.Table.Registry

/-!
# Saving of row events

An event is saved into the window of its table.  Its column names are brought
into normal form, a column that is new is added, and one without a kind takes
the kind of its value.  A value that the source left out marks its column and
says nothing about its kind.

The columns of an event are visited one after the other (`RowEvent.visit`).
When a visit fails, the columns that were visited before it stay in the
registry.
-/

namespace ChangeCapture

/-- The registry after a value of a column was seen. -/
def ColumnRegistry.admit (r : ColumnRegistry) (hints : Option KindHints) (column : String)
    (value : Json) : Outcome ColumnRegistry :=
  let name := ColumnName.normalize column
  if value.standsForUnavailable then r.mark name .asToasted
  else
    match r.get? name with
    | none => .ok (r.add (.new name (.infer hints column value)))
    | some c => .ok (if c.isSkipped then r.upgrade name (.infer hints column value) else r)

namespace RowEvent

/-- Visits values in their order, and gathers the row that is saved. -/
def visit (hints : Option KindHints) (columns : ColumnRegistry) (row : Row) :
    List (String × Json) → ColumnRegistry × Outcome Row
  | [] => (columns, .ok row)
  | (column, value) :: rest =>
    match columns.admit hints column value with
    | .error f => (columns, .error f)
    | .ok columns =>
      visit hints columns (row.insert (ColumnName.normalize column) value.collapsed) rest

/-- The window that an event is saved into: the one at hand, with the columns that the event
declares, or a new one if no row is buffered. -/
def windowFor (e : RowEvent) (s : TopicSettings) (b : TableBuffer) : Window :=
  let fresh := Window.new e.tableId e.table e.mode (e.columns.getD .empty) e.primaryKeys s
  if b.isEmpty then fresh
  else
    match b.window with
    | none => fresh
    | some w => { w with columns := w.columns.addAll ((e.columns.getD .empty).columns) }

/-- Saves values, visited in this order, into a window. -/
def saveInto (e : RowEvent) (m : Message) (w : Window) (entries : List (String × Json)) :
    Window × Outcome Unit :=
  let (columns, row) := visit e.hints w.columns .empty entries
  let w := { w with columns := columns }
  match row.bind fun row => (keyOf e.table row e.primaryKeys).map (row, ·) with
  | .error f => (w, .error f)
  | .ok (row, key) => (((w.insert key row e.isDelete).observe e.time).record m, .ok ())

/-- Saves an event whose values are visited in this order.  The outcome tells why its table must
be flushed now, if it must. -/
def saveInOrder (e : RowEvent) (s : TopicSettings) (m : Message) (entries : List (String × Json))
    (r : TableRegistry) : TableRegistry × Outcome (Option FlushReason) :=
  match e.validate with
  | .error f => (r, .error f)
  | .ok () =>
    let r := r.register e.tableId s.topic
    let b := r.getOrNew e.tableId s.topic
    let (w, outcome) := e.saveInto m (e.windowFor s b) entries
    (r.set e.tableId (b.setWindow w), outcome.map fun () => w.flushReason? r.thresholds)

/-- Saves an event. -/
def save (e : RowEvent) (s : TopicSettings) (m : Message) (r : TableRegistry) :
    TableRegistry × Outcome (Option FlushReason) :=
  e.saveInOrder s m e.data.toList r

end RowEvent

end ChangeCapture
