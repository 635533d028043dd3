import ChangeCapture.Json.Basic
import ChangeCapture.Settings.Topic

/-!
# Writing settings

The settings of a topic as a JSON object, with every option.
-/

namespace ChangeCapture

/-- The array of texts. -/
def Json.ofTexts (ss : List String) : Json := .array (ss.map .string)

/-- A static column as a JSON object. -/
def StaticColumn.toJson (c : StaticColumn) : Json :=
  .ofFields [("name", .string c.name), ("value", .string c.value)]

/-- The settings of a topic as a JSON object. -/
def TopicSettings.toJson (s : TopicSettings) : Json :=
  .ofFields [
    ("database", .string s.database),
    ("schema", .string s.schema),
    ("topic", .string s.topic),
    ("table_name", (s.tableName.map Json.string).getD .null),
    ("cdc_format", .string s.envelopeFormat.name),
    ("cdc_key_format", .string s.keyFormat.name),
    ("soft_delete", .bool s.softDelete),
    ("include_artie_updated_at", .bool s.includeUpdatedAt),
    ("include_database_updated_at", .bool s.includeDatabaseUpdatedAt),
    ("include_artie_operation", .bool s.includeOperation),
    ("primary_keys_override", .ofTexts s.primaryKeysOverride),
    ("include_primary_keys", .ofTexts s.includePrimaryKeys),
    ("columns_to_include", .ofTexts s.columnsToInclude),
    ("columns_to_exclude", .ofTexts s.columnsToExclude),
    ("columns_to_hash", .ofTexts s.columnsToHash),
    ("static_columns", .array (s.staticColumns.map StaticColumn.toJson))]

end ChangeCapture
