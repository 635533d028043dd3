import ChangeCapture.Batch
import ChangeCapture.Store.Destination
import ChangeCapture.SystemColumn

/-!
# The store

A destination in memory.  Rows are merged as a warehouse merges them: by key,
column by column, where a placeholder keeps the stored value and a row that is
deleted for good goes away.  Columns without a kind are not written.
-/

namespace ChangeCapture

/-- A table of the store. -/
structure StoredTable where
  /-- The columns. -/
  columns : ColumnRegistry
  /-- The merged rows by key. -/
  rows : SortedMap String Row
  /-- The appended rows in order. -/
  appended : List Row

namespace StoredTable

/-- A table before its first row. -/
def empty : StoredTable := ⟨.empty, .empty, []⟩

/-- Adds the columns of a window that have a kind and are not there. -/
def evolve (t : StoredTable) (w : Window) : StoredTable :=
  { t with columns := t.columns.addAll w.columns.writable }

/-- Puts one value of a row over a stored row.  A placeholder keeps a stored value. -/
def putValue (row : Row) (stored : Row) (c : Column) : Row :=
  match row.get? c.name with
  | none => stored
  | some v => if v.isPlaceholder && stored.contains c.name then stored else stored.insert c.name v

/-- Puts the values of a row over a stored row, column by column. -/
def putRow (columns : List Column) (row stored : Row) : Row := columns.foldl (putValue row) stored

/-- Merges one row under its key. -/
def mergeRow (softDelete : Bool) (columns : List Column) (rows : SortedMap String Row)
    (e : String × Row) : SortedMap String Row :=
  if e.2.isDeleted && !softDelete then rows.erase e.1
  else rows.alter e.1 fun stored => putRow columns e.2 (stored.getD .empty)

/-- Merges the rows of a window. -/
def merge (t : StoredTable) (w : Window) : StoredTable :=
  let t := t.evolve w
  { t with
    rows := w.keyed.toList.foldl (mergeRow w.settings.softDelete w.columns.writable) t.rows }

/-- Appends rows, and adds the columns of their window. -/
def append (t : StoredTable) (w : Window) (rows : List Row) : StoredTable :=
  let t := t.evolve w
  { t with appended := t.appended ++ rows }

end StoredTable

/-- A destination in memory. -/
structure Store where
  /-- The tables. -/
  tables : SortedMap TablePath StoredTable
  /-- The number of merges. -/
  merges : Nat
  /-- The number of appends. -/
  appends : Nat
  /-- The number of batches that were appended. -/
  appendBatches : Nat
  /-- The greatest size of an appended batch in encoded bytes. -/
  batchLimit : Nat

namespace Store

/-- The greatest size of an appended batch when none is set. -/
def defaultBatchLimit : Nat := 10 * 1024 * 1024

/-- A store without tables. -/
def new (batchLimit : Nat) : Store := ⟨.empty, 0, 0, 0, batchLimit⟩

/-- Removes all tables and counts. -/
def clear (s : Store) : Store := new s.batchLimit

/-- A table, or one before its first row. -/
def table (s : Store) (p : TablePath) : StoredTable := s.tables.getD p .empty

/-- Merges the rows of a window. -/
def merge (s : Store) (w : Window) : Store :=
  { s with
    tables := s.tables.insert w.path ((s.table w.path).merge w)
    merges := s.merges + 1 }

/-- The encoding of a row. -/
def encodeRow (r : Row) : ByteArray := (Json.ofMap r).toText.toUTF8

/-- How the rows of a window are packed.  The receiver gathers the batches. -/
def packing (limit : Nat) : Batch.Packing Row (List (Batch Row)) where
  limit := limit
  policy := .fail
  encode := fun _ r => .ok (encodeRow r)
  accept := fun batches b => .ok (batches ++ [b])

/-- Appends the rows of a window, all of them or, if one fits into no batch, none. -/
def append (s : Store) (w : Window) : Outcome Store :=
  match Batch.pack (packing s.batchLimit) [] w.rows with
  | (_, .error f) => .error f
  | (batches, .ok ()) => .ok
    { s with
      tables := s.tables.insert w.path ((s.table w.path).append w (batches.flatMap Batch.items))
      appends := s.appends + 1
      appendBatches := s.appendBatches + batches.length }

/-- What the store knows about a table. -/
def describe (s : Store) (p : TablePath) : TableDescription :=
  match s.tables.get? p with
  | some t => ⟨t.columns, false⟩
  | none => ⟨.empty, true⟩

instance : Destination Store where
  describe s p := (.ok (s.describe p), s)
  merge s w := (.ok true, s.merge w)
  append s w :=
    match s.append w with
    | .ok s => (.ok (), s)
    | .error f => (.error f, s)

end Store

end ChangeCapture
