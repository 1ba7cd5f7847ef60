import TraceJournal.Files.Volume
import TraceJournal.Journal.Error
import TraceJournal.Settings.Value
import TraceJournal.Text.Utf8
import TraceJournal.Toml.Printer
import TraceJournal.Toml.Reader

/-!
# Settings files

A settings file is a TOML text. Settings are written as such a file with the password hidden.

Library tracelog-log, module `config`; SPEC_FULL §6.
-/

namespace TraceJournal

/-- The entries of a settings file. -/
def StoreSettings.entries (s : StoreSettings) : List (String × Toml) :=
  [("path", .text s.path.text), ("addresses", .array (s.addresses.map .text)),
    ("database", .text s.database), ("collection", .text s.collection)] ++
  (s.username.map fun name => ("username", Toml.text name)).toList ++
  (s.password.map fun word => ("password", Toml.text word)).toList ++
  [("max_size_bytes", .integer s.maxSize.toNat),
    ("connect_timeout_ms", .integer s.connectTimeout.toNat),
    ("sync_every_write", .boolean s.syncEveryWrite)]

/-- The entries of a settings file. -/
def ReaderSettings.entries (s : ReaderSettings) : List (String × Toml) := [
  ("poll_interval_ms", .integer s.pollInterval.toNat),
  ("error_backoff_ms", .integer s.errorBackoff.toNat),
  ("max_buffered", .integer s.maxBuffered.toNat)]

/-- The entries of a settings file. -/
def PipelineSettings.entries (s : PipelineSettings) : List (String × Toml) := [
  ("queue_capacity", .integer s.queueCapacity.toNat),
  ("lost_log_interval_ms", .integer s.lossInterval.toNat),
  ("lost_log_threshold", .integer s.lossThreshold.toNat)]

namespace Settings

/-- The entries of a settings file. -/
def entries (s : Settings) : List (String × Toml) := [
  ("read_enabled", .boolean s.readEnabled),
  ("write_enabled", .boolean s.writeEnabled),
  ("store", .table .headed s.store.entries),
  ("reader", .table .headed s.reader.entries),
  ("pipeline", .table .headed s.pipeline.entries)]

/-- Reads the text of a settings file. Source: tracelog-log `TraceLogConfig.from_toml_str`. -/
def read (text : String) : Except JournalError Settings :=
  match Toml.read text with
  | none => .error (.settings "malformed TOML")
  | some value =>
    match decode value with
    | .ok settings => .ok settings
    | .error e => .error (.settings e.message)

/-- Reads a settings file. Source: tracelog-log `TraceLogConfig.load`. -/
def load (path : Path) (volume : Volume) : Except JournalError Settings :=
  match volume.read path with
  | .error e => .error (.file e)
  | .ok bytes =>
    match Text.ofBytes? bytes with
    | none => .error (.file .notText)
    | some text => read text

/-- The settings as a settings file that tells no password. A number with more than 63 bits cannot
be written, nor can a text with too many marks next to each other. Source: tracelog-log
`TraceLogConfig.to_toml_redacted`. -/
def render (s : Settings) : Except JournalError String :=
  match Toml.write s.redacted.entries with
  | .ok text => .ok text
  | .error .noForm => .error (.settings "number out of range")
  | .error .longRun => .error .longRun

end Settings

end TraceJournal
