import ChangeCapture.Settings.Topic

/-!
# Settings

The settings of a consumer: how it writes, when it flushes, where it reads and
where its rows go.
-/

namespace ChangeCapture

/-- How to reach a broker. -/
structure BrokerSettings where
  /-- The addresses of the brokers. -/
  bootstrapServers : List String
  /-- The consumer group. -/
  groupId : String
  /-- The user name. -/
  username : Option String
  /-- The password. -/
  password : Option String
  /-- The topics to read. -/
  topics : List TopicSettings
  deriving DecidableEq, Repr

/-- Where messages come from. -/
inductive SourceSettings where
  /-- A broker. -/
  | kafka (broker : BrokerSettings)
  /-- Queues in the same process. -/
  | memory (topics : List TopicSettings)
  deriving DecidableEq, Repr

/-- Where rows go. -/
inductive DestinationSettings where
  /-- Tables in the same process. -/
  | memory
  deriving DecidableEq, Repr, Inhabited

/-- The name of a destination. -/
def DestinationSettings.name : DestinationSettings → String
  | .memory => "memory"

/-- The settings of a consumer. -/
structure Settings where
  /-- How rows reach the destination. -/
  mode : Mode
  /-- The time between two sweeps, in seconds. -/
  flushIntervalSeconds : Nat
  /-- The number of rows at which a table is flushed at once. -/
  bufferRows : Nat
  /-- The size in kilobytes at which a table is flushed at once. -/
  flushSizeKb : Nat
  /-- Where messages come from. -/
  source : SourceSettings
  /-- Where rows go. -/
  destination : DestinationSettings
  deriving DecidableEq, Repr

/-- The limits at which a table is flushed at once. -/
structure Thresholds where
  /-- The number of rows. -/
  bufferRows : Nat
  /-- The size in kilobytes. -/
  flushSizeKb : Nat
  deriving DecidableEq, Repr

/-- The limits that hold when none are set. -/
def Thresholds.default : Thresholds := ⟨30000, 25600⟩

namespace Settings

/-- The time between two sweeps when none is set. -/
def defaultFlushIntervalSeconds : Nat := 10

/-- The least time between two sweeps. -/
def minFlushIntervalSeconds : Nat := 5

/-- The greatest time between two sweeps, six hours. -/
def maxFlushIntervalSeconds : Nat := 21600

/-- The least number of rows that may be set as a limit. -/
def minBufferRows : Nat := 5

/-- The limits that the settings set. -/
def thresholds (s : Settings) : Thresholds := ⟨s.bufferRows, s.flushSizeKb⟩

end Settings

/-! ## Validation -/

/-- Checks how to reach a broker. -/
def BrokerSettings.validate (b : BrokerSettings) : Except SettingsProblem Unit :=
  if b.bootstrapServers.isEmpty then .error (.emptyField "source.kafka.bootstrap_servers")
  else if Unicode.isBlankText b.groupId then .error (.emptyField "source.kafka.group_id")
  else .ok ()

namespace SourceSettings

/-- The topics of a source. -/
def topics : SourceSettings → List TopicSettings
  | .kafka broker => broker.topics
  | .memory topics => topics

/-- Checks topics one after the other, after those named in `seen`. -/
def checkTopics (seen : List String) : List TopicSettings → Except SettingsProblem Unit
  | [] => .ok ()
  | t :: rest => do
    t.validate
    if t.topic ∈ seen then .error (.duplicateTopic t.topic)
    else checkTopics (t.topic :: seen) rest

/-- Checks a source and its topics. -/
def validate (s : SourceSettings) : Except SettingsProblem Unit := do
  match s with
  | .kafka broker => broker.validate
  | .memory _ => .ok ()
  if s.topics.isEmpty then .error .missingTopics else checkTopics [] s.topics

end SourceSettings

/-- Checks settings and reports the first problem. -/
def Settings.validate (s : Settings) : Except SettingsProblem Unit :=
  if s.flushIntervalSeconds < minFlushIntervalSeconds ∨
      maxFlushIntervalSeconds < s.flushIntervalSeconds then
    .error (.invalidFieldValue "flush_interval_seconds"
      ("must be between " ++ toString minFlushIntervalSeconds ++ " and "
        ++ toString maxFlushIntervalSeconds))
  else if s.bufferRows < minBufferRows then
    .error (.invalidFieldValue "buffer_rows" ("must be at least " ++ toString minBufferRows))
  else if s.flushSizeKb = 0 then
    .error (.invalidFieldValue "flush_size_kb" "must be greater than 0")
  else s.source.validate

end ChangeCapture
