/-!
# Problems of settings

What validation can find wrong with settings that could be read.
-/

namespace ChangeCapture

/-- What is wrong with settings. -/
inductive SettingsProblem where
  /-- A field outside its range. -/
  | invalidFieldValue (field constraint : String)
  /-- A source without topics. -/
  | missingTopics
  /-- A topic that is configured twice. -/
  | duplicateTopic (topic : String)
  /-- A topic with a list of columns to keep and one of columns to drop. -/
  | conflictingColumnFilters (topic : String)
  /-- A static column that a topic declares twice. -/
  | duplicateStaticColumn (topic column : String)
  deriving DecidableEq, Repr

namespace SettingsProblem

/-- The name of a problem. -/
def name : SettingsProblem → String
  | .invalidFieldValue .. => "InvalidFieldValue"
  | .missingTopics => "MissingTopicConfigs"
  | .duplicateTopic _ => "DuplicateTopic"
  | .conflictingColumnFilters _ => "ConflictingColumnFilters"
  | .duplicateStaticColumn .. => "DuplicateStaticColumn"

/-- The text of a problem. -/
def message : SettingsProblem → String
  | .invalidFieldValue field constraint => "invalid value for `" ++ field ++ "`: " ++ constraint
  | .missingTopics => "at least one topic config must be provided"
  | .duplicateTopic topic => "topic `" ++ topic ++ "` is configured more than once"
  | .conflictingColumnFilters topic =>
    "topic `" ++ topic ++ "` cannot set both `columns_to_include` and `columns_to_exclude`"
  | .duplicateStaticColumn topic column =>
    "topic `" ++ topic ++ "` declares static column `" ++ column ++ "` more than once"

/-- The problem of a field that holds no text. -/
def emptyField (field : String) : SettingsProblem := .invalidFieldValue field "must not be empty"

end SettingsProblem

end ChangeCapture
