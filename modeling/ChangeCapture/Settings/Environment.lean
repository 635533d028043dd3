import ChangeCapture.Unicode.Lowercase

/-!
# Runtime environments

A consumer runs for development or in production.  The environment selects the
file that is laid over the base settings, and how log lines are written.
-/

namespace ChangeCapture

/-- A runtime environment. -/
inductive Environment where
  /-- Development. -/
  | dev
  /-- Production. -/
  | prod
  deriving DecidableEq, Repr, Inhabited

namespace Environment

/-- The name of an environment. -/
def name : Environment → String
  | dev => "dev"
  | prod => "prod"

/-- Whether an environment is that of production. -/
def isProd : Environment → Bool
  | dev => false
  | prod => true

/-- The variable that names the environment. -/
def variableName : String := "APP_ENVIRONMENT"

/-- The message about a name in lower case that no environment has. -/
def unknownMessage (name : String) : String :=
  name ++ " is not a supported environment. Use either `" ++ dev.name ++ "` or `" ++ prod.name
    ++ "`."

/-- The environment of a name in any case, or the message that there is none. -/
def ofName (s : String) : Except String Environment :=
  match Unicode.lowercase s with
  | "dev" => .ok dev
  | "prod" => .ok prod
  | s => .error (unknownMessage s)

/-- The environment that the variables name, development if they name none. -/
def ofVariables (vars : List (String × String)) : Except String Environment :=
  match vars.lookup variableName with
  | some name => ofName name
  | none => .ok dev

end Environment

end ChangeCapture
