import ChangeCapture.Json.Printer

/-!
# Log lines

What a consumer tells about its run, line by line.
-/

namespace ChangeCapture

/-- How grave a log line is. -/
inductive LogLevel where
  /-- Something failed. -/
  | error
  /-- Something may be wrong. -/
  | warn
  /-- Something took place. -/
  | info
  deriving DecidableEq, Repr, Inhabited

namespace LogLevel

/-- The name of a level. -/
def name : LogLevel → String
  | error => "ERROR"
  | warn => "WARN"
  | info => "INFO"

/-- The place of a level, from the gravest on. -/
def rank : LogLevel → Nat
  | error => 0
  | warn => 1
  | info => 2

end LogLevel

/-- A log line. -/
structure LogLine where
  /-- How grave it is. -/
  level : LogLevel
  /-- What it tells. -/
  fields : List (String × Json)

namespace LogLine

/-- A line with a message and other fields. -/
def note (message : String) (fields : List (String × Json)) : LogLine :=
  ⟨.info, ("message", .string message) :: fields⟩

/-- A line with a message about a failure. -/
def failure (message : String) : LogLine := ⟨.error, [("message", .string message)]⟩

/-- A line as a JSON object. -/
def toJson (l : LogLine) : Json :=
  .ofFields [("level", .string l.level.name), ("fields", .ofFields l.fields)]

/-- The text of a value of a field. -/
def valueText : Json → String
  | .string s => s
  | v => v.toText

/-- A line as a text: its level, its message, and its other fields. -/
def text (l : LogLine) : String :=
  " ".intercalate (l.level.name :: l.fields.map fun (name, v) =>
    if name == "message" then valueText v else name ++ "=" ++ valueText v)

/-- A line as it is written, as JSON in production. -/
def render (isJson : Bool) (l : LogLine) : String := if isJson then l.toJson.toText else l.text

end LogLine

/-- The least grave level that is shown, if any is. -/
structure LogFilter where
  /-- The level. -/
  level : Option LogLevel
  deriving DecidableEq, Repr

namespace LogFilter

/-- The variable that sets the filter. -/
def variableName : String := "RUST_LOG"

/-- The filter that a text sets.  Unless it asks for less, everything is shown. -/
def ofText : String → LogFilter
  | "off" => ⟨none⟩
  | "error" => ⟨some .error⟩
  | "warn" => ⟨some .warn⟩
  | _ => ⟨some .info⟩

/-- The filter that the variables set. -/
def ofVariables (vars : List (String × String)) : LogFilter :=
  ofText ((vars.lookup variableName).getD "")

/-- Whether a line is shown. -/
def shows (f : LogFilter) (l : LogLine) : Bool := f.level.any fun level => l.level.rank ≤ level.rank

end LogFilter

end ChangeCapture
