import ChangeCapture.Fault
import ChangeCapture.Text.Quoted

/-!
# Failures of a consumer

Why a consumer ends before it should, and the report of it that is written for
whoever started it.
-/

namespace ChangeCapture

/-- Why a consumer fails. -/
inductive ConsumerFailure where
  /-- Messages could not be taken in, flushed or committed. -/
  | transfer (f : Fault)
  /-- The settings are at fault.  The texts of the errors behind them follow. -/
  | settings (message : String) (causes : List String)
  /-- The settings ask for what is not there. -/
  | unsupported (what : String)
  /-- The surroundings are at fault. -/
  | io (message : String)
  deriving Repr

namespace ConsumerFailure

/-- The category of a failure. -/
def category : ConsumerFailure → String
  | transfer _ => "transfer error"
  | settings .. => "configuration error"
  | unsupported _ => "unsupported configuration"
  | io _ => "i/o error"

/-- The text of a failure. -/
def text (place : String) : ConsumerFailure → String
  | transfer f => f.render place
  | settings message _ => "configuration error: " ++ message
  | unsupported what => what ++ " is not supported by this build"
  | io message => "i/o error: " ++ message

/-- The texts of the errors behind a failure, the nearest first. -/
def causes (place : String) : ConsumerFailure → List String
  | transfer f => f.causes place
  | settings message causes => message :: causes
  | unsupported _ => []
  | io message => [message]

/-- Whether the text of a failure already lists what is behind it. -/
def listsCauses : ConsumerFailure → Bool
  | transfer f => f.count?.isSome
  | _ => false

/-- Whether a failure knows the calls that led to it. -/
def hasBacktrace (e : ConsumerFailure) : Bool := !e.listsCauses

/-- The calls that led to a failure.  They are not recorded. -/
def backtrace : String := "disabled backtrace"

/-- The numbered lines of the errors behind a failure. -/
def causeLines (number : Nat) : List String → String
  | [] => ""
  | c :: rest => "cause " ++ toString number ++ ": " ++ c ++ "\n" ++ causeLines (number + 1) rest

/-- The report of a failure. -/
def report (place : String) (showsBacktrace : Bool) (e : ConsumerFailure) : String :=
  "transfer consumer failed\n"
    ++ "category: " ++ e.category ++ "\n"
    ++ "error: " ++ e.text place ++ "\n"
    ++ (if e.listsCauses then "" else causeLines 1 (e.causes place))
    ++ (if showsBacktrace && e.hasBacktrace then "backtrace:\n" ++ backtrace ++ "\n" else "")

/-- Whether a level asks for the calls that led to a failure. -/
def showsBacktrace (level : Option String) : Bool := level == some "1" || level == some "full"

/-- The text of an unsupported setting, as diagnostics show it. -/
def inspect? : ConsumerFailure → Option String
  | unsupported what => some ("Unsupported(" ++ Text.quoted what ++ ", " ++ backtrace ++ ")")
  | _ => none

end ConsumerFailure

end ChangeCapture
