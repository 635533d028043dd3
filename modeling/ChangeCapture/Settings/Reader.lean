import ChangeCapture.Settings.Basic

/-!
# Reading settings

Settings are read from trees of values.  How a tree stands for texts, numbers,
records and choices is told by its dialect, so that strict JSON and lenient
files share one reader.  A field that is not there takes its default where it
has one; unknown fields are passed over.
-/

namespace ChangeCapture

/-- How the values of a tree are understood. -/
structure Dialect (τ : Type) where
  /-- A text. -/
  text? : τ → Option String
  /-- A truth value. -/
  flag? : τ → Option Bool
  /-- A natural number of 64 bits. -/
  natural? : τ → Option Nat
  /-- A list. -/
  items? : τ → Option (List τ)
  /-- Whether a value is null. -/
  isNull : τ → Bool
  /-- The fields of a record whose fields have these names in this order. -/
  record? : List String → τ → Option (List (String × τ))
  /-- The fields of a record that belongs to a choice. -/
  chosenRecord? : List String → τ → Option (List (String × τ))
  /-- The name of a choice among these, and what comes with it. -/
  choice? : List String → τ → Option (String × Option τ)
  /-- Whether what comes with a choice may be passed over. -/
  isBare : Option τ → Bool

namespace Dialect

variable {τ α : Type} (d : Dialect τ)

/-- A value that may be null. -/
def nullable? (read : τ → Option α) (v : τ) : Option (Option α) :=
  if d.isNull v then some none else (read v).map some

/-- A list of values. -/
def list? (read : τ → Option α) (v : τ) : Option (List α) :=
  (d.items? v).bind fun items => items.mapM read

/-- A list of texts. -/
def texts? (v : τ) : Option (List String) := d.list? d.text? v

/-- A choice among names that stand for values. -/
def named? (names : List (String × α)) (v : τ) : Option α := do
  let (name, content) ← d.choice? (names.map Prod.fst) v
  if d.isBare content then names.lookup name else none

/-- A field that must be there. -/
def field? (fields : List (String × τ)) (name : String) (read : τ → Option α) : Option α :=
  (fields.lookup name).bind read

/-- A field, or its default if it is not there. -/
def fieldOr? (fields : List (String × τ)) (name : String) (default : α) (read : τ → Option α) :
    Option α :=
  match fields.lookup name with
  | some v => read v
  | none => some default

/-! ## Topics -/

/-- A static column. -/
def staticColumn? (v : τ) : Option StaticColumn := do
  let fields ← d.record? ["name", "value"] v
  some ⟨← field? fields "name" d.text?, ← field? fields "value" d.text?⟩

/-- The fields of the settings of a topic, in order. -/
def topicFields : List String := [
  "database", "schema", "topic", "table_name", "cdc_format", "cdc_key_format", "soft_delete",
  "include_artie_updated_at", "include_database_updated_at", "include_artie_operation",
  "primary_keys_override", "include_primary_keys", "columns_to_include", "columns_to_exclude",
  "columns_to_hash", "static_columns"]

/-- The settings of a topic. -/
def topic? (v : τ) : Option TopicSettings := do
  let fields ← d.record? topicFields v
  some {
    database := ← field? fields "database" d.text?
    schema := ← field? fields "schema" d.text?
    topic := ← field? fields "topic" d.text?
    tableName := ← fieldOr? fields "table_name" none (d.nullable? d.text?)
    envelopeFormat := ← fieldOr? fields "cdc_format" .debeziumJson (d.named? [
      ("debezium.json", .debeziumJson), ("debezium.postgres", .debeziumJson),
      ("debezium.mysql", .debeziumJson)])
    keyFormat := ← fieldOr? fields "cdc_key_format" .json
      (d.named? [("json", .json), ("string", .string)])
    softDelete := ← fieldOr? fields "soft_delete" false d.flag?
    includeUpdatedAt := ← fieldOr? fields "include_artie_updated_at" false d.flag?
    includeDatabaseUpdatedAt := ← fieldOr? fields "include_database_updated_at" false d.flag?
    includeOperation := ← fieldOr? fields "include_artie_operation" false d.flag?
    primaryKeysOverride := ← fieldOr? fields "primary_keys_override" [] d.texts?
    includePrimaryKeys := ← fieldOr? fields "include_primary_keys" [] d.texts?
    columnsToInclude := ← fieldOr? fields "columns_to_include" [] d.texts?
    columnsToExclude := ← fieldOr? fields "columns_to_exclude" [] d.texts?
    columnsToHash := ← fieldOr? fields "columns_to_hash" [] d.texts?
    staticColumns := ← fieldOr? fields "static_columns" [] (d.list? d.staticColumn?) }

/-- The settings of topics. -/
def topics? (v : τ) : Option (List TopicSettings) := d.list? d.topic? v

/-! ## Sources and destinations -/

/-- How to reach a broker. -/
def broker? (v : τ) : Option BrokerSettings := do
  let fields ← d.record?
    ["bootstrap_servers", "group_id", "username", "password", "topic_configs"] v
  some {
    bootstrapServers := ← field? fields "bootstrap_servers" d.texts?
    groupId := ← field? fields "group_id" d.text?
    username := ← fieldOr? fields "username" none (d.nullable? d.text?)
    password := ← fieldOr? fields "password" none (d.nullable? d.text?)
    topics := ← field? fields "topic_configs" d.topics? }

/-- Where messages come from. -/
def source? (v : τ) : Option SourceSettings :=
  match d.choice? ["kafka", "memory"] v with
  | some ("kafka", some content) => (d.broker? content).map .kafka
  | some ("memory", some content) => do
    let fields ← d.chosenRecord? ["topic_configs"] content
    some (.memory (← field? fields "topic_configs" d.topics?))
  | _ => none

/-- Where rows go. -/
def destination? (v : τ) : Option DestinationSettings := d.named? [("memory", .memory)] v

/-! ## All settings -/

/-- The settings of a consumer. -/
def settings? (v : τ) : Option Settings := do
  let fields ← d.record? ["mode", "flush_interval_seconds", "buffer_rows", "flush_size_kb",
    "source", "destination"] v
  some {
    mode := ← fieldOr? fields "mode" .replication
      (d.named? [("replication", .replication), ("history", .history)])
    flushIntervalSeconds := ← fieldOr? fields "flush_interval_seconds"
      Settings.defaultFlushIntervalSeconds d.natural?
    bufferRows := ← fieldOr? fields "buffer_rows" Thresholds.default.bufferRows d.natural?
    flushSizeKb := ← fieldOr? fields "flush_size_kb" Thresholds.default.flushSizeKb d.natural?
    source := ← field? fields "source" d.source?
    destination := ← fieldOr? fields "destination" .memory d.destination? }

end Dialect

end ChangeCapture
