import ChangeCapture.Change
import ChangeCapture.Debezium.Conversion
import ChangeCapture.Debezium.Key

/-!
# Message values

A message value holds a change, alone or beside a schema that describes it.
-/

namespace ChangeCapture.Debezium

/-- What a message reports. -/
structure Payload where
  /-- The row after the change. -/
  after : Option Row
  /-- The milliseconds since 1970 at which the source committed it. -/
  millis : Int
  /-- The table. -/
  table : String
  /-- The code of the operation. -/
  operation : String

/-- Reads the fields of a row. -/
def row? (v : Json) : Option Row := v.object?.map .ofList

/-- Reads when and where a change happened. -/
def origin? (v : Json) : Option (Int × String) := do
  let parts ← v.record? ["ts_ms", "table"]
  let millis ← Json.fieldOr Json.int64? 0 "ts_ms" parts
  let table ← Json.fieldOr Json.string? "" "table" parts
  some (millis, table)

/-- Reads what a message reports. -/
def Payload.read? (v : Json) : Option Payload := do
  let parts ← v.record? ["after", "source", "op"]
  let after ← Json.fieldOr (Json.nullable? row?) none "after" parts
  let (millis, table) ← Json.fieldOr origin? (0, "") "source" parts
  let operation ← Json.fieldOr Json.string? "" "op" parts
  some ⟨after, millis, table, operation⟩

/-- Reads the fields of a schema. -/
def schema? (v : Json) : Option (List Field) := do
  let parts ← v.record? ["fields"]
  Json.fieldOr (fun v => v.array?.bind fun vs => vs.mapM Field.read?) [] "fields" parts

/-- Reads a message value: its schema if it has one, and what it reports. -/
def envelope? (v : Json) : Option (Option (List Field) × Payload) :=
  match v.field? "payload" with
  | none => do some (none, ← Payload.read? v)
  | some payload => do
    let schema ← Json.fieldOr (Json.nullable? schema?) none "schema" (v.object?.getD [])
    some (schema, ← Payload.read? payload)

/-- The fields of the row after the change. -/
def rowFields? (schema : List Field) : Option (List Field) :=
  (schema.find? (·.name == "after")).map Field.fields

/-- The fault of a row with a number that cannot be written. -/
def overlong : Fault := .plain .crash "Decimal value has too many places"

/-- The change of a message value. -/
def changeOf (schema : Option (List Field)) (payload : Payload) : Outcome Change :=
  match Operation.ofCode? payload.operation with
  | none =>
    .error (unreadablePart "Unsupported change operation"
      ("operation '" ++ payload.operation ++ "' is not supported"))
  | some operation =>
    if payload.table.isEmpty then .error (unreadable "Change event has no source table")
    else if !(Instant.ofMillis payload.millis).isSupported then
      .error (unreadablePart "Change event has an invalid source timestamp"
        (toString payload.millis))
    else
      let fields := schema.bind rowFields?
      if payload.after.any (breaksRow (fields.getD [])) then .error overlong
      else .ok {
        table := payload.table
        operation := operation
        time := .ofMillis payload.millis
        after := (payload.after.filter fun r => !r.isEmpty).map (convertRow (fields.getD []))
        hints := fields.map Field.hints
        columns := fields.map Field.columns }

/-- The change that a message value reports. -/
def readValue (value : ByteArray) : Outcome Change :=
  match (Json.readBytes? value).bind envelope? with
  | none => .error notJson
  | some (schema, payload) => changeOf schema payload

end ChangeCapture.Debezium
