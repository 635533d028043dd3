import ChangeCapture.Column.Name
import ChangeCapture.Fault
import ChangeCapture.Json.Reader
import ChangeCapture.Json.Record
import ChangeCapture.Row
import ChangeCapture.Settings.Topic
import ChangeCapture.Text.Form

/-!
# Message keys

A message key names the primary key columns of a row and their values.  It is
written as a JSON object, or as a list of pairs between `Struct` braces.
-/

namespace ChangeCapture.Debezium

/-- A fault of a key or of a value. -/
def unreadable (description : String) : Fault := .plain .deserializationError description

/-- A fault of a key or of a value, with the part at fault. -/
def unreadablePart (description part : String) : Fault :=
  .detailed .deserializationError description part

/-- Bytes that hold no JSON. -/
def notJson : Fault := Text.Form.json.fault

/-- The field that names the table of a row among several that share a topic.  It belongs to no
key. -/
def tableField : String := "__dbz__physicalTableIdentifier"

/-- The key columns of named values, given in the order of the names. -/
def keyColumns (fields : List (String × Json)) : Row :=
  .ofList ((fields.filter fun e => e.1 != tableField).map fun e => (ColumnName.normalize e.1, e.2))

/-- The key columns of a JSON key.  They may stand under `payload`. -/
def jsonKey (v : Json) : Outcome Row :=
  match v with
  | .object [] => .error (unreadable "Message key is empty")
  | .object fields =>
    match fields.lookup "payload" with
    | none => .ok (keyColumns fields)
    | some (.object inner) => .ok (keyColumns inner)
    | some other => .error (unreadablePart "Message key payload is malformed" other.toText)
  | _ => .error (unreadable "Message key is not a JSON object")

/-! ## Keys between braces -/

/-- The parts of a text between separators. -/
def splitAt (separator : Char) (part : List Char) : List Char → List (List Char)
  | [] => [part.reverse]
  | c :: rest =>
    if c = separator then part.reverse :: splitAt separator [] rest
    else splitAt separator (c :: part) rest

/-- The text between the braces of a key. -/
def insideBraces? (cs : List Char) : Option (List Char) :=
  match cs with
  | 'S' :: 't' :: 'r' :: 'u' :: 'c' :: 't' :: '\x7b' :: rest =>
    if rest.getLast? = some '\x7d' then some rest.dropLast else none
  | _ => none

/-- The name and the value of a pair.  The first equals sign divides them. -/
def pair (cs : List Char) : Outcome (String × Json) :=
  match cs.span (· != '=') with
  | (name, _ :: value) => .ok (String.ofList name, .string (String.ofList value))
  | (_, []) =>
    .error (unreadablePart "Message key has a malformed key value pair" (String.ofList cs))

/-- The least length of a key between braces, in bytes. -/
def minBracedBytes : Nat := 9

/-- The key columns of a key between braces. -/
def bracedKey (key : String) : Outcome Row :=
  if key.utf8ByteSize < minBracedBytes then
    .error (unreadablePart "Message key is too short" key)
  else
    match insideBraces? key.toList with
    | none => .error (unreadablePart "Message key has an incorrect structure" key)
    | some inner => do
      let pairs ← (splitAt ',' [] inner).mapM pair
      .ok (keyColumns (SortedMap.ofList pairs).entries)

/-- The key columns of a message key. -/
def readKey (format : KeyFormat) (key : ByteArray) : Outcome Row :=
  if key.isEmpty then .error (unreadable "Message key is empty")
  else
    match format with
    | .json =>
      match Json.readBytes? key with
      | none => .error notJson
      | some v => jsonKey v
    | .string =>
      match String.fromUTF8? key with
      | none => .error Text.Form.utf8.fault
      | some key => bracedKey key

end ChangeCapture.Debezium
