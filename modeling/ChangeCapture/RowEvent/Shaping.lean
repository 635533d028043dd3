import ChangeCapture.Column.Name
import ChangeCapture.RowEvent.Basic
import ChangeCapture.Text.Sha256

/-!
# Shaping of changes

How the settings of a topic turn a change into a row event: which columns are
kept, dropped or replaced by digests, which columns are added, and which are
the primary keys.
-/

namespace ChangeCapture

/-! ## Data -/

/-- The digest of a value.  Null stays null. -/
def Json.hashed : Json → Json
  | .null => .null
  | v => .string (Sha256.hexDigest v.keyText)

namespace Row

/-- Replaces the values of columns by their digests. -/
def hashColumns (names : List String) (r : Row) : Row :=
  names.foldl (fun r name => r.modify name Json.hashed) r

/-- Drops columns. -/
def dropColumns (names : List String) (r : Row) : Row := names.foldl SortedMap.erase r

/-- Keeps columns and drops all others. -/
def keepColumns (names : List String) (r : Row) : Row := r.filter fun name _ => names.contains name

end Row

namespace TopicSettings

/-- The columns that a list of columns to keep always keeps along. -/
def keptNames (s : TopicSettings) : List String :=
  s.columnsToInclude ++ SystemColumn.all ++ s.staticNames

/-- Applies digests and filters to the data of an event. -/
def shapeData (s : TopicSettings) (data : Row) : Row :=
  let data := (data.hashColumns s.columnsToHash).dropColumns s.columnsToExclude
  if s.columnsToInclude.isEmpty then data else data.keepColumns s.keptNames

/-- The data of a change with the system columns that the settings ask for.  A delete has no row
after it, so its data is the key. -/
def baseData (s : TopicSettings) (c : Change) (key : Row) (now : Instant) : Row :=
  let data := if c.isDelete then key else c.after.getD .empty
  let data := data.insert SystemColumn.deleted (.bool c.isDelete)
  let data :=
    if s.includeUpdatedAt then data.insert SystemColumn.updatedAt (.string now.toRfc3339) else data
  if s.includeDatabaseUpdatedAt then
    data.insert SystemColumn.databaseUpdatedAt (.string c.time.toRfc3339)
  else data

/-- Adds static columns to the data of an event, none of which may be there. -/
def addStatic (data : Row) : List StaticColumn → Outcome Row
  | [] => .ok data
  | c :: rest =>
    if data.contains c.name then
      .error (RowEvent.fault "Static column collides with event data"
        ("static column '" ++ c.name ++ "' is already present"))
    else addStatic (data.insert c.name (.string c.value)) rest

/-! ## Columns -/

/-- The columns that an event declares, after the filters and with the static columns. -/
def shapeColumns (s : TopicSettings) (columns : Option ColumnRegistry) : Option ColumnRegistry :=
  if columns.isNone && s.staticColumns.isEmpty then none
  else
    let kept := s.columnsToExclude.foldl ColumnRegistry.erase (columns.getD .empty)
    let kept :=
      if s.columnsToInclude.isEmpty then kept
      else .ofList ((s.columnsToInclude ++ SystemColumn.all).filterMap kept.get?)
    some (kept.addAll (s.staticColumns.map fun c => .new c.name .string))

/-! ## Primary keys -/

/-- Adds a primary key that is not there. -/
def addKey (keys : List String) (name : String) : List String :=
  if keys.contains name then keys else keys ++ [name]

/-- The primary keys of an event with this message key, in no order. -/
def keyNames (s : TopicSettings) (key : Row) : List String :=
  if s.primaryKeysOverride.isEmpty then
    (s.includePrimaryKeys.map ColumnName.normalize).foldl addKey key.keys
  else s.primaryKeysOverride.map ColumnName.normalize

/-- Marks columns as primary keys. -/
def markKeys (names : List String) (columns : ColumnRegistry) : Outcome ColumnRegistry :=
  names.foldlM (fun columns name => columns.mark name .asPrimaryKey) columns

/-- Names in increasing order. -/
def sortNames (names : List String) : List String := names.mergeSort fun a b => decide (a ≤ b)

/-! ## Tables -/

/-- The end of the name of a table that is written in history mode. -/
def historySuffix : String := "__history"

/-- The table that a change of a table is written to. -/
def tableFor (s : TopicSettings) (mode : Mode) (table : String) : String :=
  let table := s.tableName.getD table
  if mode == .history && !table.endsWith historySuffix then table ++ historySuffix else table

end TopicSettings

/-! ## Events -/

namespace RowEvent

/-- The data of an event before the static columns and the filters. -/
def collectData (s : TopicSettings) (mode : Mode) (c : Change) (key : Row) (now : Instant) : Row :=
  let code := Json.string c.operation.code
  let data := s.baseData c key now
  let data := if s.includeOperation then data.insert SystemColumn.operation code else data
  match mode with
  | .replication => data
  | .history =>
    ((data.insert SystemColumn.operation code).erase SystemColumn.deleted).erase
      SystemColumn.onlySetDelete

/-- The event of a change whose message has this key.  `now` is the time at which it is taken
in. -/
def ofChange (s : TopicSettings) (mode : Mode) (now : Instant) (key : Row) (c : Change) :
    Outcome RowEvent := do
  let keys := s.keyNames key
  let columns ← match s.shapeColumns c.columns with
    | none => .ok none
    | some columns => (TopicSettings.markKeys keys columns).map some
  let data ← TopicSettings.addStatic (collectData s mode c key now) s.staticColumns
  let table := s.tableFor mode c.table
  .ok {
    table := table
    tableId := ⟨s.schema, table⟩
    data := s.shapeData data
    hints := c.hints
    columns := columns
    isDelete := c.isDelete
    primaryKeys := TopicSettings.sortNames keys
    time := c.time
    mode := mode }

end RowEvent

end ChangeCapture
