import ChangeCapture.Text.Lines
import ChangeCapture.Unicode.Blank

/-!
# Faults

What can go wrong while changes are captured.  A fault has a kind, a fixed
description, a detail that names the values at hand, and the text of the error
that caused it.  Several faults, for instance of the tables of one flush, are
gathered into one.

`Fault.render` is the only place that words a whole fault.
-/

namespace ChangeCapture

/-- The kinds of faults. -/
inductive FaultKind where
  /-- A row event that cannot be saved. -/
  | invalidEvent
  /-- A value that breaks a rule of the buffer. -/
  | invalidData
  /-- A value that cannot be converted. -/
  | conversionError
  /-- A key or a value that cannot be decoded. -/
  | deserializationError
  /-- A row that cannot be encoded. -/
  | serializationError
  /-- A topic without a consumer. -/
  | unknownTopic
  /-- A row that fits into no batch. -/
  | batchItemTooLarge
  /-- A batch whose row could not be encoded. -/
  | batchEncodeFailed
  /-- A merge that the destination refused. -/
  | mergeFailed
  /-- An append that the destination refused. -/
  | appendFailed
  /-- Any other fault of the destination. -/
  | destinationError
  /-- A read that the source refused. -/
  | sourceError
  /-- A commit that the source refused. -/
  | commitFailed
  /-- A fault of the settings. -/
  | configError
  /-- A state that should not arise. -/
  | invalidState
  /-- A flush worker that died. -/
  | flushWorkerPanic
  /-- A reader that died. -/
  | readerWorkerPanic
  /-- A step that brought its worker down. -/
  | crash
  /-- A fault of input or output. -/
  | ioError
  /-- Anything else. -/
  | unknown
  deriving DecidableEq, Repr, Inhabited

/-- The name of a kind. -/
def FaultKind.name : FaultKind → String
  | .invalidEvent => "InvalidEvent"
  | .invalidData => "InvalidData"
  | .conversionError => "ConversionError"
  | .deserializationError => "DeserializationError"
  | .serializationError => "SerializationError"
  | .unknownTopic => "UnknownTopic"
  | .batchItemTooLarge => "BatchItemTooLarge"
  | .batchEncodeFailed => "BatchEncodeFailed"
  | .mergeFailed => "MergeFailed"
  | .appendFailed => "AppendFailed"
  | .destinationError => "DestinationError"
  | .sourceError => "SourceError"
  | .commitFailed => "CommitFailed"
  | .configError => "ConfigError"
  | .invalidState => "InvalidState"
  | .flushWorkerPanic => "FlushWorkerPanic"
  | .readerWorkerPanic => "ReaderWorkerPanic"
  | .crash => "Panic"
  | .ioError => "IoError"
  | .unknown => "Unknown"

/-- Every kind that a report can name.  A worker that is down reports nothing. -/
def FaultKind.all : List FaultKind := [
  .invalidEvent, .invalidData, .conversionError, .deserializationError, .serializationError,
  .unknownTopic, .batchItemTooLarge, .batchEncodeFailed, .mergeFailed, .appendFailed,
  .destinationError, .sourceError, .commitFailed, .configError, .invalidState, .flushWorkerPanic,
  .readerWorkerPanic, .ioError, .unknown]

/-- The kind of a name. -/
def FaultKind.ofName? (name : String) : Option FaultKind := FaultKind.all.find? (·.name == name)

/-- A fault, or several gathered into one. -/
inductive Fault where
  /-- One fault. -/
  | single (kind : FaultKind) (description : String) (detail : Option String)
      (cause : Option String)
  /-- Several faults. -/
  | many (faults : List Fault)
  deriving Inhabited, Repr

namespace Fault

/-- A fault without a detail. -/
def plain (kind : FaultKind) (description : String) : Fault := .single kind description none none

/-- A fault with a detail. -/
def detailed (kind : FaultKind) (description detail : String) : Fault :=
  .single kind description (some detail) none

/-- Gathers faults.  One fault stays as it is. -/
def ofList : List Fault → Fault
  | [f] => f
  | fs => .many fs

/-- Names the text of the error behind a fault.  Gathered faults stay as they are. -/
def withCause (cause : String) : Fault → Fault
  | .single kind description detail _ => .single kind description detail (some cause)
  | .many fs => .many fs

/-- The description, if the fault is a single one. -/
def description? : Fault → Option String
  | .single _ description _ _ => some description
  | .many _ => none

/-- The number of faults that are gathered directly, if the fault is not a single one. -/
def count? : Fault → Option Nat
  | .single .. => none
  | .many fs => some fs.length

mutual

/-- The kind of the first fault. -/
def kind : Fault → FaultKind
  | .single kind _ _ _ => kind
  | .many fs => firstKind fs

/-- The kind of the first fault of a list. -/
def firstKind : List Fault → FaultKind
  | [] => .unknown
  | f :: _ => f.kind

end

mutual

/-- The kinds of all faults in it. -/
def kinds : Fault → List FaultKind
  | .single kind _ _ _ => [kind]
  | .many fs => allKinds fs

/-- The kinds of all faults of a list. -/
def allKinds : List Fault → List FaultKind
  | [] => []
  | f :: fs => f.kinds ++ allKinds fs

end

mutual

/-- The first detail in it. -/
def detail? : Fault → Option String
  | .single _ _ detail _ => detail
  | .many fs => firstDetail? fs

/-- The first detail of a list. -/
def firstDetail? : List Fault → Option String
  | [] => none
  | f :: fs => f.detail?.orElse fun _ => firstDetail? fs

end

mutual

/-- Whether two faults are alike: single ones of one kind, or equally many alike in pairs. -/
def alike : Fault → Fault → Bool
  | .single k _ _ _, .single k' _ _ _ => k == k'
  | .many fs, .many gs => allAlike fs gs
  | _, _ => false

/-- Whether two lists of faults are alike. -/
def allAlike : List Fault → List Fault → Bool
  | [], [] => true
  | f :: fs, g :: gs => f.alike g && allAlike fs gs
  | _, _ => false

end

mutual

/-- Whether two faults are reported as one group: the same kinds and descriptions. -/
def sameGroup : Fault → Fault → Bool
  | .single k d _ _, .single k' d' _ _ => k == k' && d == d'
  | .many fs, .many gs => allSameGroup fs gs
  | _, _ => false

/-- Whether two lists of faults are reported as one group. -/
def allSameGroup : List Fault → List Fault → Bool
  | [], [] => true
  | f :: fs, g :: gs => f.sameGroup g && allSameGroup fs gs
  | _, _ => false

end

/-! ## Text -/

/-- The block of lines that shows a detail. -/
def renderDetail : Option String → String
  | none => ""
  | some detail =>
    if Unicode.isBlankText detail then "\n  Detail: <empty>"
    else "\n  Detail:" ++ String.join ((Text.lines detail).map fun l => "\n    " ++ l)

/-- An entry of a numbered list, with its further lines set in. -/
def renderEntry (number : Nat) (text : String) : String :=
  match Text.lines text with
  | [] => "\n  " ++ toString number ++ "."
  | first :: rest =>
    "\n  " ++ toString number ++ ". " ++ first ++ String.join (rest.map fun l => "\n     " ++ l)

mutual

/-- The text of a fault.  `place` stands for the point in the program where it arose. -/
def render (place : String) : Fault → String
  | .single kind description detail _ =>
    "[" ++ kind.name ++ "] " ++ description ++ " @ " ++ place ++ renderDetail detail
  | .many fs =>
    "[Many] " ++ toString fs.length ++ (if fs.length = 1 then " error" else " errors")
      ++ " aggregated @ " ++ place ++ renderEntries place 1 fs

/-- The numbered list of faults. -/
def renderEntries (place : String) (number : Nat) : List Fault → String
  | [] => ""
  | f :: fs => renderEntry number (f.render place) ++ renderEntries place (number + 1) fs

end

/-- What stands for the point in the program where a fault arose. -/
def somewhere : String := "<location>"

mutual

/-- The texts of the errors behind a fault, the nearest first. -/
def causes (place : String) : Fault → List String
  | .single _ _ _ cause => cause.toList
  | .many fs => causesOfFirst place fs

/-- The first fault of a list with the errors behind it. -/
def causesOfFirst (place : String) : List Fault → List String
  | [] => []
  | f :: _ => f.render place :: f.causes place

end

end Fault

/-- The outcome of an operation that may fail. -/
abbrev Outcome (α : Type) := Except Fault α

end ChangeCapture
