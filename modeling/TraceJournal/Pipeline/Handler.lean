import TraceJournal.Journal.Writer
import TraceJournal.Pipeline.Basic

/-!
# Handlers

What is done with delivered records: they are logged, stored by a writer, or handled after a
script. A handler that fails or panics does not keep the record from the others; what is worth
telling is told in notices.

Library tracelog-pipeline, modules `handler` and `dispatcher`; SPEC_FULL §8.
-/

namespace TraceJournal

/-- How important a logged line is. Source: tracelog-pipeline `LoggingHandler.level`. -/
inductive Level where
  | error
  | warn
  | info
  | debug
  | trace
  deriving DecidableEq, Repr

/-- The name of a level. -/
def Level.name : Level → String
  | .error => "ERROR"
  | .warn => "WARN"
  | .info => "INFO"
  | .debug => "DEBUG"
  | .trace => "TRACE"

/-- The level with a name. -/
def Level.ofName? (name : String) : Option Level :=
  [Level.error, .warn, .info, .debug, .trace].find? (·.name == name)

/-- A level is found under its name. -/
theorem Level.ofName?_name (level : Level) : ofName? level.name = some level := by
  cases level <;> rfl

/-- A line of the log. Source: tracelog-pipeline `LoggingHandler.handle`, `LossMonitor.record` and
`deliver`, tracelog-log `DurableLogWriter.handle`. -/
inductive Notice where
  /-- A record was logged. -/
  | traced (level : Level) (record : Record)
  /-- Records were lost. -/
  | overflow (report : LossReport)
  /-- A handler failed. -/
  | handlerFailed (handler : String) (record : Record) (error : HandlerError)
  /-- A record could not be stored. -/
  | notStored (record : Record) (error : JournalError)

/-- The fields of a line, but for the time of a report, which differs from run to run. -/
def Notice.toJson : Notice → Json
  | traced level r => .ofFields [
    ("level", .text level.name), ("message", .text "trace"), ("owner", .text r.owner),
    ("interface", .text r.interface), ("method", .text r.method),
    ("args", .text (Json.renderAll r.args))]
  | overflow report => .ofFields [
    ("level", .text Level.warn.name), ("message", .text "trace queue full; events dropped"),
    ("lost", .ofNat report.lost), ("total", .ofNat report.total)]
  | handlerFailed handler r e => .ofFields [
    ("level", .text Level.error.name), ("message", .text "trace handler failed"),
    ("handler", .text handler), ("interface", .text r.interface), ("method", .text r.method),
    ("error", .text e.message)]
  | notStored r e => .ofFields [
    ("level", .text Level.error.name), ("message", .text "failed to persist trace record"),
    ("owner", .text r.owner), ("method", .text r.method), ("error", .text e.message)]

/-- What a scripted handler does. -/
inductive Act where
  /-- Nothing more than noting the record. -/
  | collect
  /-- Answers an error. -/
  | fail (error : HandlerError)
  /-- Panics, with a text or with something else. -/
  | panic (payload : Option String)
  /-- Waits until the gate is open. -/
  | gate
  /-- Disables the pipeline. -/
  | disable
  /-- Changes the registry: removes all handlers if `clear`, then adds some and removes some, by
  name. -/
  | reshuffle (clear : Bool) (added removed : List String)

/-- A handler. Source: tracelog-pipeline `TraceHandler`. -/
inductive Handler where
  | logging (level : Level)
  | durable (writer : Writer) (link : Link)
  /-- Notes every record and acts on those of one method, or on all. -/
  | scripted (name : String) (only : Option String) (act : Act) (seen : List Record)

namespace Handler

/-- The name of a handler in notices. Source: tracelog-pipeline `TraceHandler.name`. -/
def name : Handler → String
  | logging _ => "logging"
  | durable _ _ => Writer.name
  | scripted name _ _ _ => name

end Handler

end TraceJournal
