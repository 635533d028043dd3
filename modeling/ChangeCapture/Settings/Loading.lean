import ChangeCapture.Json.Reader
import ChangeCapture.Settings.Environment
import ChangeCapture.Settings.Variables
import ChangeCapture.Yaml.Document

/-!
# Loading settings

Settings are gathered from a folder and from variables.  The folder holds a
base file and may hold a file for the environment, which is laid over it.  Of
a file's spellings (`base.yaml`, `base.yml`, `base.json`) the first that is
there counts.  Variables come last.
-/

namespace ChangeCapture

/-- A folder of files. -/
structure SettingsFolder where
  /-- Where it is. -/
  path : String
  /-- The files by name, if the folder is there. -/
  files : Option (List (String × ByteArray))

/-- Why settings cannot be loaded. -/
inductive LoadProblem where
  /-- The folder is not there. -/
  | missingFolder (folder : String)
  /-- The base file is not there.  These names were tried. -/
  | missingFile (folder : String) (names : List String)
  /-- A file holds no table of settings. -/
  | unreadableFile (description path : String)
  /-- The settings do not have the form of settings. -/
  | unreadableSettings
  /-- The environment is not known. -/
  | environment (message : String)
  deriving DecidableEq, Repr

namespace LoadProblem

/-- The name of a problem. -/
def name : LoadProblem → String
  | missingFolder _ => "MissingConfigurationDirectory"
  | missingFile .. => "ConfigurationFileMissing"
  | unreadableFile .. => "ConfigurationFileLoad"
  | unreadableSettings => "Deserialization"
  | environment _ => "Environment"

/-- The path of a file in quotes. -/
def quotedPath (folder name : String) : String := "`" ++ folder ++ "/" ++ name ++ "`"

/-- The text of a problem. -/
def message : LoadProblem → String
  | missingFolder folder => "configuration directory `" ++ folder ++ "` does not exist"
  | missingFile folder names =>
    "could not locate base configuration in `" ++ folder ++ "`; attempted: "
      ++ ", ".intercalate (names.map (quotedPath folder))
  | unreadableFile description path =>
    "failed to load " ++ description ++ " from " ++ path ++ ": it does not hold settings"
  | unreadableSettings => "failed to deserialize configuration: it does not describe a consumer"
  | environment message => "failed to determine runtime environment: " ++ message

/-- Whether the text of a problem is settled by the form of the settings alone.  What a file lacks
to be read is not told in a settled way. -/
def hasSettledText : LoadProblem → Bool
  | unreadableFile .. => false
  | unreadableSettings => false
  | _ => true

end LoadProblem

namespace SettingsFolder

/-- The names under which a file is looked for. -/
def spellings (stem : String) : List String :=
  ["yaml", "yml", "json"].map fun ending => stem ++ "." ++ ending

/-- The first of these files that is there. -/
def find? (files : List (String × ByteArray)) (names : List String) :
    Option (String × ByteArray) :=
  names.findSome? fun name => (files.lookup name).map (name, ·)

/-- The tree that a text in YAML holds.  A text without a document holds no settings. -/
def yamlTree? (text : String) : Option SettingTree :=
  match Yaml.Node.ofText? text with
  | some (some v) => SettingTree.ofNode? v
  | some none => some (.table [])
  | none => none

/-- The settings that a file holds, by their paths. -/
def entries? (name : String) (contents : ByteArray) : Option (List (String × SettingTree)) := do
  let text ← String.fromUTF8? contents
  let tree ←
    if name.endsWith ".json" then (Json.read? text).map SettingTree.ofJson else yamlTree? text
  match tree with
  | .table fields => some fields
  | _ => none

/-- Lays the settings of a file over a tree. -/
def layFile (folder description : String) (root : SettingTree) (file : String × ByteArray) :
    Except LoadProblem SettingTree :=
  match entries? file.1 file.2 with
  | some entries => .ok (root.putAll entries)
  | none => .error (.unreadableFile description (LoadProblem.quotedPath folder file.1))

/-- The tree that the files and the variables give. -/
def tree (folder : SettingsFolder) (environment : Environment)
    (vars : List (String × String)) : Except LoadProblem SettingTree := do
  let some files := folder.files | .error (.missingFolder folder.path)
  let names := spellings "base"
  let some base := find? files names | .error (.missingFile folder.path names)
  let root ← layFile folder.path "base configuration" (.table []) base
  let root ← match find? files (spellings environment.name) with
    | some file =>
      layFile folder.path (environment.name ++ " environment configuration") root file
    | none => .ok root
  .ok (root.putAll (Variables.settings vars))

/-- The settings that the files and the variables give. -/
def load (folder : SettingsFolder) (environment : Environment)
    (vars : List (String × String)) : Except LoadProblem Settings := do
  match SettingTree.lenient.settings? (← folder.tree environment vars) with
  | some settings => .ok settings
  | none => .error .unreadableSettings

end SettingsFolder

end ChangeCapture
