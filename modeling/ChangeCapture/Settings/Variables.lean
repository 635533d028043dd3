import ChangeCapture.Settings.Merge

/-!
# Settings in variables

Variables of the environment whose names begin with `APP_` are settings.  Two
underscores in a name lead into a table, as in `APP_SOURCE__KAFKA__GROUP_ID`.
The case of the name does not matter.
-/

namespace ChangeCapture.Variables

/-- What the names of settings begin with. -/
def opening : List Char := "app_".toList

/-- The paths whose values are lists. -/
def listPaths : List String := ["source.kafka.bootstrap_servers"]

/-- Replaces two underscores by a point. -/
def pointed : List Char → List Char
  | '_' :: '_' :: rest => '.' :: pointed rest
  | c :: rest => c :: pointed rest
  | [] => []

/-- The path of the setting that a variable gives. -/
def path? (name : String) : Option String :=
  let cs := (Unicode.lowercase name).toList
  if opening.isPrefixOf cs then some (String.ofList (pointed (cs.drop opening.length))) else none

/-- The tree of a value: a truth value, a number, a list at some paths, or else a text. -/
def valueTree (path value : String) : SettingTree :=
  match Unicode.lowercase value with
  | "true" => .flag true
  | "false" => .flag false
  | _ =>
    match Text.int64? value, Binary64.readNumeral value with
    | some n, _ => .integer n
    | none, some x => .real x
    | none, none =>
      if listPaths.contains path then .list ((value.splitOn ",").map .text) else .text value

/-- Variables as the system lists them: a name, an equals sign and a value, with a null character
after each. -/
def ofBlock (block : String) : List (String × String) :=
  (block.splitOn "\x00").filterMap fun entry =>
    let (name, rest) := entry.toList.span (· != '=')
    if rest.isEmpty then none else some (String.ofList name, String.ofList (rest.drop 1))

/-- The settings that variables give, by their paths. -/
def settings (vars : List (String × String)) : List (String × SettingTree) :=
  vars.filterMap fun (name, value) => (path? name).map fun path => (path, valueTree path value)

end ChangeCapture.Variables
