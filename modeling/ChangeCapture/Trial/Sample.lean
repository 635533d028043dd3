import ChangeCapture.Change
import ChangeCapture.Message.Queue
import ChangeCapture.Settings.Topic

/-!
# Sample messages

Keys, values and messages for trials: a row has an integer `id`, and changes
are dated to one instant.
-/

namespace ChangeCapture.Sample

/-- When sample changes are committed, in milliseconds since 1970. -/
def millis : Int := 1700000000000

/-- The settings of a sample topic. -/
def settings (topic : String) : TopicSettings := .new "shop" "public" topic

/-- The key of a row. -/
def key (id : Int) : ByteArray :=
  (Json.ofFields [("payload", .ofFields [("id", .int id)])]).toText.toUTF8

/-- The value of a change without a schema. -/
def value (table : String) (operation : Operation) (after : Option Json) (millis : Int) :
    ByteArray :=
  (Json.ofFields [
    ("before", .null),
    ("after", after.getD .null),
    ("source", .ofFields [("ts_ms", .int millis), ("table", .string table)]),
    ("op", .string operation.code)]).toText.toUTF8

/-- A change without a schema. -/
def change (table : String) (operation : Operation) (after : Option Row) : Change :=
  ⟨table, operation, .ofMillis millis, after, none, none⟩

/-- A message. -/
def message (topic : String) (offset : Int) (key value : ByteArray) : Message :=
  ⟨topic, 0, offset, some key, some value, offset + 1, false, .latestPerPartition⟩

/-- The row of a person. -/
def person (id : Int) (name : String) : Json :=
  .ofFields [("id", .int id), ("name", .string name)]

end ChangeCapture.Sample
