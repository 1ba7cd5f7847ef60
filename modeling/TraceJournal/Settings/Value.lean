import TraceJournal.Decode
import TraceJournal.Settings.Basic

/-!
# Settings as values

Settings are decoded from values of any data format; what is not mentioned is as standard, and
unknown names are passed over. As a JSON value they tell everything, the password included.

Library tracelog-log, module `config`, as serde derives it.
-/

namespace TraceJournal

variable {α : Type} [HasShape α]

/-- A text, or null for none. -/
def Json.ofText? (s : Option String) : Json := s.elim .null .text

namespace StoreSettings

/-- The fields in values. -/
def slots : List (Decode.Slot α StoreSettings) := [
  ⟨"path", fun s v => do return { s with path := ⟨← Decode.textAs "path string" v⟩ }⟩,
  ⟨"addresses", fun s v => do
    return { s with addresses := ← (← Decode.sequence v).mapM Decode.text }⟩,
  ⟨"database", fun s v => do return { s with database := ← Decode.text v }⟩,
  ⟨"collection", fun s v => do return { s with collection := ← Decode.text v }⟩,
  ⟨"username", fun s v => do return { s with username := ← Decode.optionalText v }⟩,
  ⟨"password", fun s v => do return { s with password := ← Decode.optionalText v }⟩,
  ⟨"max_size_bytes", fun s v => do return { s with maxSize := ← Decode.word v }⟩,
  ⟨"connect_timeout_ms", fun s v => do return { s with connectTimeout := ← Decode.word v }⟩,
  ⟨"sync_every_write", fun s v => do return { s with syncEveryWrite := ← Decode.boolean v }⟩]

/-- Decodes the settings of a store. Source: tracelog-log `StoreConfig`. -/
def decode (value : α) : Except DecodeError StoreSettings :=
  Decode.structureOf "struct StoreConfig" slots standard .ok value

/-- The settings as a value. -/
def toJson (s : StoreSettings) : Json := .ofFields [
  ("path", .text s.path.text),
  ("addresses", .array (s.addresses.map .text)),
  ("database", .text s.database),
  ("collection", .text s.collection),
  ("username", .ofText? s.username),
  ("password", .ofText? s.password),
  ("max_size_bytes", .ofWord s.maxSize),
  ("connect_timeout_ms", .ofWord s.connectTimeout),
  ("sync_every_write", .boolean s.syncEveryWrite)]

end StoreSettings

namespace ReaderSettings

/-- The fields in values. -/
def slots : List (Decode.Slot α ReaderSettings) := [
  ⟨"poll_interval_ms", fun s v => do return { s with pollInterval := ← Decode.word v }⟩,
  ⟨"error_backoff_ms", fun s v => do return { s with errorBackoff := ← Decode.word v }⟩,
  ⟨"max_buffered", fun s v => do return { s with maxBuffered := ← Decode.count v }⟩]

/-- Decodes the settings of a reader. Source: tracelog-log `ReaderConfig`. -/
def decode (value : α) : Except DecodeError ReaderSettings :=
  Decode.structureOf "struct ReaderConfig" slots standard .ok value

/-- The settings as a value. -/
def toJson (s : ReaderSettings) : Json := .ofFields [
  ("poll_interval_ms", .ofWord s.pollInterval),
  ("error_backoff_ms", .ofWord s.errorBackoff),
  ("max_buffered", .ofWord s.maxBuffered)]

end ReaderSettings

namespace PipelineSettings

/-- The fields in values. -/
def slots : List (Decode.Slot α PipelineSettings) := [
  ⟨"queue_capacity", fun s v => do return { s with queueCapacity := ← Decode.count v }⟩,
  ⟨"lost_log_interval_ms", fun s v => do return { s with lossInterval := ← Decode.word v }⟩,
  ⟨"lost_log_threshold", fun s v => do return { s with lossThreshold := ← Decode.word v }⟩]

/-- Decodes the settings of a pipeline. Source: tracelog-pipeline `PipelineConfig`. -/
def decode (value : α) : Except DecodeError PipelineSettings :=
  Decode.structureOf "struct PipelineConfig" slots standard .ok value

/-- The settings as a value. -/
def toJson (s : PipelineSettings) : Json := .ofFields [
  ("queue_capacity", .ofWord s.queueCapacity),
  ("lost_log_interval_ms", .ofWord s.lossInterval),
  ("lost_log_threshold", .ofWord s.lossThreshold)]

end PipelineSettings

namespace Settings

/-- The fields in values. -/
def slots : List (Decode.Slot α Settings) := [
  ⟨"read_enabled", fun s v => do return { s with readEnabled := ← Decode.boolean v }⟩,
  ⟨"write_enabled", fun s v => do return { s with writeEnabled := ← Decode.boolean v }⟩,
  ⟨"store", fun s v => do return { s with store := ← StoreSettings.decode v }⟩,
  ⟨"reader", fun s v => do return { s with reader := ← ReaderSettings.decode v }⟩,
  ⟨"pipeline", fun s v => do return { s with pipeline := ← PipelineSettings.decode v }⟩]

/-- Decodes settings. Source: tracelog-log `TraceLogConfig`. -/
def decode (value : α) : Except DecodeError Settings :=
  Decode.structureOf "struct TraceLogConfig" slots standard .ok value

/-- The settings as a value. -/
def toJson (s : Settings) : Json := .ofFields [
  ("read_enabled", .boolean s.readEnabled),
  ("write_enabled", .boolean s.writeEnabled),
  ("store", s.store.toJson),
  ("reader", s.reader.toJson),
  ("pipeline", s.pipeline.toJson)]

end Settings

end TraceJournal
