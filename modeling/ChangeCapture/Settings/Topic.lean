import ChangeCapture.Settings.Problem
import ChangeCapture.Unicode.Blank

/-!
# Settings of a topic

Where the rows of a topic go, how its messages are encoded, and how its columns
are filtered, hashed and extended.
-/

namespace ChangeCapture

/-- How rows reach the destination. -/
inductive Mode where
  /-- One row per key, merged. -/
  | replication
  /-- Every change, appended. -/
  | history
  deriving DecidableEq, Repr, Inhabited

/-- The name of a mode. -/
def Mode.name : Mode → String
  | .replication => "replication"
  | .history => "history"

/-- How a message key is encoded. -/
inductive KeyFormat where
  /-- A JSON object. -/
  | json
  /-- A list of pairs between `Struct` braces. -/
  | string
  deriving DecidableEq, Repr, Inhabited

/-- The name of a key format. -/
def KeyFormat.name : KeyFormat → String
  | .json => "json"
  | .string => "string"

/-- The envelope of the values of a topic. -/
inductive EnvelopeFormat where
  /-- The JSON envelope of Debezium. -/
  | debeziumJson
  deriving DecidableEq, Repr, Inhabited

/-- The name of an envelope format. -/
def EnvelopeFormat.name : EnvelopeFormat → String
  | .debeziumJson => "debezium.json"

/-- A column that holds one text in every row of a topic. -/
structure StaticColumn where
  /-- The name of the column. -/
  name : String
  /-- The text it holds. -/
  value : String
  deriving DecidableEq, Repr

/-- The settings of a topic. -/
structure TopicSettings where
  /-- The database of the destination. -/
  database : String
  /-- The schema of the destination. -/
  schema : String
  /-- The name of the topic. -/
  topic : String
  /-- The table to write, in place of the one that a change names. -/
  tableName : Option String
  /-- The envelope of the values. -/
  envelopeFormat : EnvelopeFormat
  /-- The encoding of the keys. -/
  keyFormat : KeyFormat
  /-- Whether a delete marks its row and does not remove it. -/
  softDelete : Bool
  /-- Whether rows carry the time at which they were taken in. -/
  includeUpdatedAt : Bool
  /-- Whether rows carry the time of the change at its source. -/
  includeDatabaseUpdatedAt : Bool
  /-- Whether rows carry the operation. -/
  includeOperation : Bool
  /-- The primary keys, in place of those of the message key. -/
  primaryKeysOverride : List String
  /-- Primary keys beside those of the message key. -/
  includePrimaryKeys : List String
  /-- The columns to keep, or none to keep all. -/
  columnsToInclude : List String
  /-- The columns to drop. -/
  columnsToExclude : List String
  /-- The columns whose values are replaced by their digests. -/
  columnsToHash : List String
  /-- The columns that hold one text in every row. -/
  staticColumns : List StaticColumn
  deriving DecidableEq, Repr

namespace TopicSettings

/-- The settings of a topic with every option left out. -/
def new (database schema topic : String) : TopicSettings where
  database := database
  schema := schema
  topic := topic
  tableName := none
  envelopeFormat := .debeziumJson
  keyFormat := .json
  softDelete := false
  includeUpdatedAt := false
  includeDatabaseUpdatedAt := false
  includeOperation := false
  primaryKeysOverride := []
  includePrimaryKeys := []
  columnsToInclude := []
  columnsToExclude := []
  columnsToHash := []
  staticColumns := []

/-- The names of the static columns. -/
def staticNames (s : TopicSettings) : List String := s.staticColumns.map StaticColumn.name

/-- Checks static columns one after the other, after those named in `seen`. -/
def checkStaticColumns (topic : String) (seen : List String) :
    List StaticColumn → Except SettingsProblem Unit
  | [] => .ok ()
  | c :: rest =>
    if Unicode.isBlankText c.name then
      .error (.emptyField "topic_configs.static_columns.name")
    else if c.name ∈ seen then .error (.duplicateStaticColumn topic c.name)
    else checkStaticColumns topic (c.name :: seen) rest

/-- Checks the settings of a topic. -/
def validate (s : TopicSettings) : Except SettingsProblem Unit :=
  if Unicode.isBlankText s.topic then .error (.emptyField "topic_configs.topic")
  else if Unicode.isBlankText s.database then .error (.emptyField "topic_configs.database")
  else if Unicode.isBlankText s.schema then .error (.emptyField "topic_configs.schema")
  else if !s.columnsToInclude.isEmpty && !s.columnsToExclude.isEmpty then
    .error (.conflictingColumnFilters s.topic)
  else checkStaticColumns s.topic [] s.staticColumns

end TopicSettings

end ChangeCapture
