import ChangeCapture.Consumer.Run

/-!
# The program

The consumer as a program.  It takes its settings from the folder
`configuration` of the working directory and from the variables of the
environment, and writes log lines to standard output.  The end of standard
input tells it to stop.
-/

open ChangeCapture

/-- The variables of the environment. -/
def readVariables : IO (List (String × String)) := do
  let block ← IO.FS.readBinFile "/proc/self/environ"
  return Variables.ofBlock ((String.fromUTF8? block).getD "")

/-- The files of the settings that are there. -/
def readFiles (folder : String) : IO (List (String × ByteArray)) := do
  let names := ["base", "dev", "prod"].flatMap SettingsFolder.spellings
  names.foldlM (fun files name => do
    let path : String := folder ++ "/" ++ name
    try
      let contents ← IO.FS.readBinFile path
      return files ++ [(name, contents)]
    catch _ => return files) []

/-- The folder of the settings. -/
def readFolder : IO SettingsFolder := do
  let folder : String := (← IO.currentDir).toString ++ "/" ++ Consumer.folderName
  let inside : String := folder ++ "/."
  try
    let _ ← IO.FS.Handle.mk inside .read
    return ⟨folder, some (← readFiles folder)⟩
  catch _ => return ⟨folder, none⟩

/-- Waits until standard input ends. -/
partial def waitForEnd (input : IO.FS.Stream) : IO Unit := do
  unless (← input.getLine).isEmpty do waitForEnd input

/-- Writes the log lines that are shown. -/
def writeLines (environment : Environment) (filter : LogFilter) (lines : List LogLine) :
    IO Unit := do
  for l in lines.filter filter.shows do
    IO.println (l.render environment.isProd)
  (← IO.getStdout).flush

/-- Runs the consumer. -/
def main : IO UInt32 := do
  let vars ← readVariables
  let fail (failure : ConsumerFailure) : IO UInt32 := do
    IO.eprint (Consumer.report vars failure)
    return 1
  match Consumer.prepare (← readFolder) vars with
  | .error failure => fail failure
  | .ok (environment, settings) =>
    let run := Consumer.run environment settings .terminate (.ofMillis 0)
    let filter := LogFilter.ofVariables vars
    writeLines environment filter run.before
    if run.isSignalled then waitForEnd (← IO.getStdin)
    writeLines environment filter run.after
    match run.failure with
    | some failure => fail failure
    | none => return 0
