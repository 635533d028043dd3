import ChangeCapture.Column.Inference
import ChangeCapture.Column.Name
import ChangeCapture.Column.Registry
import ChangeCapture.Json.Reader
import ChangeCapture.Json.Record
import ChangeCapture.Text.Integer

/-!
# Fields of an embedded schema

A message may carry a schema that says of each column what type its values
have and what they stand for.
-/

namespace ChangeCapture.Debezium

/-- What the values of a field stand for. -/
inductive LogicalType where
  /-- Days since 1970. -/
  | date
  /-- Milliseconds since midnight. -/
  | time
  /-- Microseconds since midnight. -/
  | microTime
  /-- Milliseconds since 1970. -/
  | timestamp
  /-- Microseconds since 1970. -/
  | microTimestamp
  /-- A text with a date, a time and a zone. -/
  | zonedTimestamp
  /-- A text that holds JSON. -/
  | json
  /-- A decimal number as its unscaled bytes. -/
  | decimal
  /-- Something else. -/
  | other
  deriving DecidableEq, Repr, Inhabited

/-- The logical type of a name. -/
def LogicalType.ofName : String → LogicalType
  | "io.debezium.time.Date" => .date
  | "io.debezium.time.Time" => .time
  | "io.debezium.time.MicroTime" => .microTime
  | "io.debezium.time.Timestamp" => .timestamp
  | "io.debezium.time.MicroTimestamp" => .microTimestamp
  | "io.debezium.time.ZonedTimestamp" => .zonedTimestamp
  | "io.debezium.data.Json" => .json
  | "org.apache.kafka.connect.data.Decimal" => .decimal
  | _ => .other

/-- A field of a schema. -/
inductive Field where
  /-- A field with its type, its name, what it stands for, its parameters and its own fields. -/
  | mk (type name : String) (logicalType : Option LogicalType)
      (parameters : List (String × Json)) (fields : List Field)
  deriving Inhabited

namespace Field

/-- The type of the values. -/
def type : Field → String
  | mk type .. => type

/-- The name of the column. -/
def name : Field → String
  | mk _ name .. => name

/-- What the values stand for. -/
def logicalType : Field → Option LogicalType
  | mk _ _ logicalType .. => logicalType

/-- The parameters of the logical type. -/
def parameters : Field → List (String × Json)
  | mk _ _ _ parameters _ => parameters

/-- The fields in it. -/
def fields : Field → List Field
  | mk _ _ _ _ fields => fields

/-- The names under which the parts of a field are written, in their order. -/
def partNames : List String := ["type", "field", "name", "parameters", "fields"]

/-- Reads a field with at most `depth` levels of fields in it. -/
def readWithin? : Nat → Json → Option Field
  | 0, _ => none
  | depth + 1, v => do
    let parts ← v.record? partNames
    let type ← Json.fieldOr Json.string? "" "type" parts
    let name ← Json.fieldOr Json.string? "" "field" parts
    let logicalType ← Json.fieldOr (Json.nullable? Json.string?) none "name" parts
    let parameters ← Json.fieldOr Json.object? [] "parameters" parts
    let fields ← Json.fieldOr (fun v => v.array?.bind fun vs => vs.mapM (readWithin? depth)) []
      "fields" parts
    some (mk type name (logicalType.map .ofName) parameters fields)

/-- Reads a field.  A value that could be read has few enough levels. -/
def read? : Json → Option Field := readWithin? (Json.maxDepth + 1)

/-- Whether the values are plain integers. -/
def isInteger (f : Field) : Bool :=
  f.logicalType.isNone && ["int8", "int16", "int32", "int64"].contains f.type

/-- Whether the values are plain texts. -/
def isText (f : Field) : Bool := f.logicalType.isNone && f.type == "string"

/-- The greatest parameter, and the greatest precision and scale of a decimal. -/
def parameterBound : Nat := 1 <<< 16

/-- A parameter that is a number, plain or in a text. -/
def parameter? (f : Field) (name : String) : Option Nat :=
  match f.parameters.lookup name with
  | some (.string s) => Text.natBelow? parameterBound s
  | some (.int n) => if 0 ≤ n ∧ n < parameterBound then some n.toNat else none
  | _ => none

/-- The number of places of a decimal. -/
def scale (f : Field) : Nat := (f.parameter? "scale").getD 0

/-- The kind of column for values of a type. -/
def kindOfType : String → ColumnKind
  | "int8" | "int16" | "int32" | "int64" => .integer
  | "float" | "float32" | "float64" | "double" => .float
  | "boolean" => .boolean
  | "string" => .string
  | "struct" | "map" => .struct
  | "array" => .array
  | _ => .invalid

/-- The kind of column for the values of a field. -/
def kind (f : Field) : ColumnKind :=
  match f.logicalType with
  | some .date => .extendedTime .date
  | some .time | some .microTime => .extendedTime .time
  | some .timestamp | some .microTimestamp => .extendedTime .timestampNtz
  | some .zonedTimestamp => .extendedTime .timestampTz
  | some .json => .struct
  | some .decimal => .decimal (f.parameter? "connect.decimal.precision") f.scale
  | some .other | none => kindOfType f.type

/-- Whether the kind of a field is a hint.  Plain texts are hinted so that one that looks like a
date stays a text; of other plain types the values tell enough. -/
def isHint (f : Field) : Bool := f.isText || (f.logicalType.isSome && f.kind != .invalid)

/-- The hints that fields give. -/
def hints (fs : List Field) : KindHints :=
  .ofList ((fs.filter isHint).map fun f => (f.name, f.kind))

/-- The columns that fields declare. -/
def columns (fs : List Field) : ColumnRegistry :=
  .ofList (fs.map fun f => .new (ColumnName.normalize f.name) f.kind)

end Field

end ChangeCapture.Debezium
