import ChangeCapture.Consumer.Failure
import ChangeCapture.Consumer.Log
import ChangeCapture.Session.Caller
import ChangeCapture.Settings.Loading
import ChangeCapture.Store.Basic

/-!
# Runs of a consumer

A consumer loads its settings, checks them, starts a reader for each topic and
a ticker, and works until it is told to stop.  Then it flushes what is left.
-/

namespace ChangeCapture

/-- What tells a consumer to stop. -/
inductive StopSignal where
  /-- A request to end, by another program. -/
  | terminate
  /-- An interruption from the keyboard. -/
  | interrupt
  deriving DecidableEq, Repr, Inhabited

/-- The message about a signal. -/
def StopSignal.message : StopSignal → String
  | .terminate => "sigterm received, shutting down consumer"
  | .interrupt => "sigint (ctrl+c) received, shutting down consumer"

/-- What a run of a consumer led to. -/
structure ConsumerRun where
  /-- The log lines up to the signal to stop, in order. -/
  before : List LogLine
  /-- The log lines from the signal on, in order. -/
  after : List LogLine
  /-- Why the run failed, if it did. -/
  failure : Option ConsumerFailure
  /-- Whether the run took notice of the signal to stop. -/
  isSignalled : Bool

/-- All log lines. -/
def ConsumerRun.logs (r : ConsumerRun) : List LogLine := r.before ++ r.after

namespace Consumer

/-- The name of the program. -/
def programName : String := "transfer-consumer"

/-- The folder of the settings within the working directory. -/
def folderName : String := "configuration"

/-- Loads and checks the settings. -/
def prepare (folder : SettingsFolder) (vars : List (String × String)) :
    Except ConsumerFailure (Environment × Settings) :=
  match Environment.ofVariables vars with
  | .error message => .error (.io message)
  | .ok environment =>
    match folder.load environment vars with
    | .error p => .error (.settings p.message [])
    | .ok settings =>
      match settings.validate with
      | .error p => .error (.settings p.message [])
      | .ok () => .ok (environment, settings)

/-! ## Log lines -/

/-- The line about the settings. -/
def settingsLine (s : Settings) : LogLine :=
  .note "consumer config" [
    ("mode", .string s.mode.name),
    ("flush_interval_seconds", .int s.flushIntervalSeconds),
    ("buffer_rows", .int s.bufferRows),
    ("flush_size_kb", .int s.flushSizeKb),
    ("destination", .string s.destination.name),
    ("topics", .string (Text.quotedList (s.source.topics.map TopicSettings.topic)))]

/-- The lines before readers are started. -/
def openingLines (environment : Environment) (s : Settings) : List LogLine := [
  .note "tracing initialized"
    [("app", .string programName), ("json", .bool environment.isProd)],
  .note "starting transfer consumer" [],
  settingsLine s]

/-- The lines of the readers and the ticker as they start. -/
def startLines (s : Settings) : List LogLine :=
  s.source.topics.map (fun _ => .note "starting reader" [("source", .string "memory")])
    ++ [.note "starting flush ticker" [("interval_secs", .int s.flushIntervalSeconds)]]

/-- The lines from the signal to the last flush. -/
def stopLines (signal : StopSignal) (s : Settings) : List LogLine :=
  .note signal.message []
    :: s.source.topics.map (fun _ => .note "shutdown signal received, stopping reader" [])
    ++ [.note "shutdown signal received, stopping flush ticker" [], .note "running final flush" []]

/-- The last line. -/
def closingLine : LogLine := .note "transfer consumer completed" []

/-! ## Runs -/

/-- A session over queues and tables in the same process, with its readers and its ticker. -/
def session (s : Settings) (topics : List TopicSettings) (start : Instant) :
    Session Store MessageQueue :=
  let sources := SortedMap.ofList (topics.map fun t =>
    (t.topic, MessageQueue.new t.topic .latestPerPartition))
  let engine := Engine.new s.thresholds (Store.new Store.defaultBatchLimit) sources .flush
  ((Session.new engine s.mode start).startReaders topics).startTicker
    (s.flushIntervalSeconds * 1000)

/-- Runs a consumer until it is told to stop. -/
def run (environment : Environment) (s : Settings) (signal : StopSignal) (start : Instant) :
    ConsumerRun :=
  let opening := openingLines environment s
  match s.source with
  | .kafka _ =>
    let failure := ConsumerFailure.unsupported "the kafka source"
    ⟨opening ++ [.failure (failure.text Fault.somewhere)], [], some failure, false⟩
  | .memory topics =>
    let (lastLine, failure) := match ((session s topics start).stop.flush .shutdown).2 with
      | .ok () => (closingLine, none)
      | .error f => (.failure (f.render Fault.somewhere), some (.transfer f))
    ⟨opening ++ startLines s, stopLines signal s ++ [lastLine], failure, true⟩

/-- The report of a failure, as it is written for whoever started the consumer. -/
def report (vars : List (String × String)) (failure : ConsumerFailure) : String :=
  failure.report Fault.somewhere
    (ConsumerFailure.showsBacktrace (vars.lookup "RUST_BACKTRACE"))

end Consumer

end ChangeCapture
