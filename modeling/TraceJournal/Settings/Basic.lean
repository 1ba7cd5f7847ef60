import TraceJournal.Files.Path
import TraceJournal.Pipeline.Settings
import TraceJournal.Text.Quoted
import TraceJournal.Time.Span

/-!
# Settings

What can be set for stores, readers and pipelines, with a standard for everything. The password is
shown to nobody: neither the form for diagnostics nor the settings as they are written tell more
than whether there is one.

Library tracelog-log, module `config`; SPEC_FULL §6.
-/

namespace TraceJournal

/-- When written frames are forced out to the disk. Source: tracelog-store `SyncMode`. -/
inductive SyncMode where
  /-- After every insertion. -/
  | everyWrite
  /-- When the system chooses. -/
  | systemChoice
  deriving DecidableEq, Repr

/-- Where and how documents are stored. A segment store uses the path, the bound of its size and
when it is synced; the rest is for stores that are reached over a network. Source: tracelog-log
`StoreConfig`. -/
structure StoreSettings where
  path : Path
  addresses : List String
  database : String
  collection : String
  username : Option String
  password : Option String
  maxSize : UInt64
  /-- How long to wait for a connection, in milliseconds. -/
  connectTimeout : UInt64
  syncEveryWrite : Bool
  deriving DecidableEq

/-- How a reader follows a store. Source: tracelog-log `ReaderConfig`. -/
structure ReaderSettings where
  /-- How long to wait when nothing came or the buffer is full, in milliseconds. -/
  pollInterval : UInt64
  /-- How long to wait after a failure, in milliseconds. -/
  errorBackoff : UInt64
  /-- How many records are buffered at most. -/
  maxBuffered : UInt64
  deriving DecidableEq, Repr

/-- All settings. Source: tracelog-log `TraceLogConfig`. -/
structure Settings where
  readEnabled : Bool
  writeEnabled : Bool
  store : StoreSettings
  reader : ReaderSettings
  pipeline : PipelineSettings
  deriving DecidableEq

/-- What stands for a password that is there. Source: tracelog-log `StoreConfig` and
`TraceLogConfig.to_toml_redacted`. -/
def hiddenPassword : String := "<redacted>"

namespace StoreSettings

/-- A file of at most 64 MiB in the current directory. Source: tracelog-log
`StoreConfig.default`. -/
def standard : StoreSettings where
  path := ⟨"traces.seg"⟩
  addresses := []
  database := "tracelog"
  collection := "traces"
  username := none
  password := none
  maxSize := 64 * 1024 * 1024
  connectTimeout := 5000
  syncEveryWrite := false

/-- The full name of the collection. Source: tracelog-log `StoreConfig.namespace`. -/
def qualifiedName (s : StoreSettings) : String := s.database ++ "." ++ s.collection

/-- When a segment store is synced. Source: tracelog-log `StoreConfig.segment_config`. -/
def syncMode (s : StoreSettings) : SyncMode :=
  if s.syncEveryWrite then .everyWrite else .systemChoice

/-- The settings with the password hidden. Source: tracelog-log
`TraceLogConfig.to_toml_redacted`. -/
def redacted (s : StoreSettings) : StoreSettings :=
  { s with password := s.password.map fun _ => hiddenPassword }

/-- The form for diagnostics. Source: tracelog-log, the diagnostics of `StoreConfig`. -/
def debug (s : StoreSettings) : String :=
  Text.fieldsText "StoreConfig" [
    ("path", Text.quoted s.path.text),
    ("addresses", "[" ++ ", ".intercalate (s.addresses.map Text.quoted) ++ "]"),
    ("database", Text.quoted s.database),
    ("collection", Text.quoted s.collection),
    ("username", Text.optionText (s.username.map Text.quoted)),
    ("password", Text.optionText (s.redacted.password.map Text.quoted)),
    ("max_size_bytes", String.ofList (Text.decimal s.maxSize.toNat)),
    ("connect_timeout_ms", String.ofList (Text.decimal s.connectTimeout.toNat)),
    ("sync_every_write", Text.flagText s.syncEveryWrite)]

end StoreSettings

namespace ReaderSettings

/-- Ten looks a second, a second of rest after a failure, and ten thousand records. Source:
tracelog-log `ReaderConfig.default`. -/
def standard : ReaderSettings := ⟨100, 1000, 10000⟩

/-- The form for diagnostics. Source: tracelog-log, the diagnostics of `ReaderConfig`. -/
def debug (s : ReaderSettings) : String :=
  Text.fieldsText "ReaderConfig" [
    ("poll_interval_ms", String.ofList (Text.decimal s.pollInterval.toNat)),
    ("error_backoff_ms", String.ofList (Text.decimal s.errorBackoff.toNat)),
    ("max_buffered", String.ofList (Text.decimal s.maxBuffered.toNat))]

end ReaderSettings

/-- The form for diagnostics. Source: tracelog-pipeline, the diagnostics of `PipelineConfig`. -/
def PipelineSettings.debug (s : PipelineSettings) : String :=
  Text.fieldsText "PipelineConfig" [
    ("queue_capacity", String.ofList (Text.decimal s.queueCapacity.toNat)),
    ("lost_log_interval_ms", String.ofList (Text.decimal s.lossInterval.toNat)),
    ("lost_log_threshold", String.ofList (Text.decimal s.lossThreshold.toNat))]

namespace Settings

/-- Reading and writing are allowed, and the rest is as standard. Source: tracelog-log
`TraceLogConfig.default`. -/
def standard : Settings := ⟨true, true, .standard, .standard, .standard⟩

/-- The settings with the password hidden. Source: tracelog-log
`TraceLogConfig.to_toml_redacted`. -/
def redacted (s : Settings) : Settings := { s with store := s.store.redacted }

/-- The form for diagnostics. Source: tracelog-log, the diagnostics of `TraceLogConfig`. -/
def debug (s : Settings) : String :=
  Text.fieldsText "TraceLogConfig" [
    ("read_enabled", Text.flagText s.readEnabled),
    ("write_enabled", Text.flagText s.writeEnabled),
    ("store", s.store.debug),
    ("reader", s.reader.debug),
    ("pipeline", s.pipeline.debug)]

end Settings

end TraceJournal
