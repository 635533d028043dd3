import ChangeCapture.Table.Buffer

/-!
# Table registries

The buffers of all tables, and the tables of each topic in the order in which
they came up.  A table stays with the topic that brought it up
(`TableRegistry.register`).
-/

namespace ChangeCapture

/-- The buffers of all tables. -/
structure TableRegistry where
  /-- The buffers by table. -/
  tables : SortedMap TableId TableBuffer
  /-- The tables of each topic, in the order in which they came up. -/
  topics : SortedMap String (List TableId)
  /-- The limits at which a table is flushed at once. -/
  thresholds : Thresholds

namespace TableRegistry

/-- The registry before the first table. -/
def new (thresholds : Thresholds) : TableRegistry := ⟨.empty, .empty, thresholds⟩

/-- The buffer of a table. -/
def get? (r : TableRegistry) (t : TableId) : Option TableBuffer := r.tables.get? t

/-- The number of tables. -/
def tableCount (r : TableRegistry) : Nat := r.tables.size

/-- The tables of a topic, in the order in which they came up. -/
def tablesOf (r : TableRegistry) (topic : String) : List TableId := r.topics.getD topic []

/-- Brings up a table under a topic, unless it is there. -/
def register (r : TableRegistry) (t : TableId) (topic : String) : TableRegistry :=
  if r.tables.contains t then r
  else
    { r with
      tables := r.tables.insert t (.new t topic)
      topics := r.topics.insert topic (r.tablesOf topic ++ [t]) }

/-- The buffer of a table, or the one it starts with. -/
def getOrNew (r : TableRegistry) (t : TableId) (topic : String) : TableBuffer :=
  r.tables.getD t (.new t topic)

/-- Replaces the buffer of a table. -/
def set (r : TableRegistry) (t : TableId) (b : TableBuffer) : TableRegistry :=
  { r with tables := r.tables.insert t b }

end TableRegistry

end ChangeCapture
