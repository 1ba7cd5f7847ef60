import TraceJournal.Pipeline.Bench
import TraceJournal.Settings.Basic

/-!
# Demonstrations

Events that show a pipeline at work: they are emitted one after the other, go through the pipeline
to a writer, and are counted in the end.

Library tracelog-cli, module `commands`; SPEC_FULL §4.7.
-/

namespace TraceJournal

/-- The events of a demonstration. Source: tracelog-cli `DemoEvents`. -/
inductive DemoEvent where
  | started (count : UInt64)
  | tick (index : UInt64) (label : String)
  | finished (count : UInt64)

namespace DemoEvent

/-- The name of the interface. Source: tracelog-cli `DemoEvents`. -/
def interface : String := "DemoEvents"

/-- An event of the interface. Source: tracelog-cli `DemoEvents`. -/
def toEvent : DemoEvent → Event
  | started count => ⟨"started", [.integer count.toNat]⟩
  | tick index label => ⟨"tick", [.integer index.toNat, .text label]⟩
  | finished count => ⟨"finished", [.integer count.toNat]⟩

/-- The event of one tick. -/
def tickOf (index : Nat) : DemoEvent :=
  .tick (.ofNat index) ("tick-" ++ String.ofList (Text.decimal index))

/-- The events of a demonstration with so many ticks. Source: tracelog-cli `cmd_emit`, its calls. -/
def sequence (count : UInt64) : List DemoEvent :=
  .started count :: (List.range count.toNat).map tickOf ++ [.finished count]

end DemoEvent

/-- How a demonstration went. Source: tracelog-cli `cmd_emit`. -/
structure EmitSummary where
  emitted : Nat
  persisted : Nat
  failed : Nat
  dropped : Nat
  deriving DecidableEq, Repr

/-- The line that tells how a demonstration went. Source: tracelog-cli `cmd_emit`, what it
prints. -/
def EmitSummary.text (s : EmitSummary) : String :=
  let count (n : Nat) : String := String.ofList (Text.decimal n)
  "✓ Emitted " ++ count s.emitted ++ " records: " ++ count s.persisted ++ " persisted, " ++
    count s.failed ++ " failed, " ++ count s.dropped ++ " dropped\n"

namespace Demonstration

/-- The number of the writer among the handlers. -/
def writerId : HandlerId := 0

/-- An enabled pipeline that stores records through a link, and logs them if asked to. Source:
tracelog-cli `cmd_emit`, up to its first call. -/
def start (settings : Settings) (verbose : Bool) (now : Instant) (link : Link) : Bench :=
  let b := Bench.create settings.pipeline now
  let (writer, b) :=
    b.addHandler Writer.name (.durable (.create settings.writeEnabled) link)
  let (_, b) := b.register writer
  let b :=
    if verbose then
      let (logger, b) := b.addHandler "logging" (.logging .info)
      (b.register logger).2
    else b
  { b with pipeline := b.pipeline.enable true }

/-- The pipeline after the events, which is disabled once all are delivered. Source: tracelog-cli
`cmd_emit`, its calls. -/
def run (owner : String) (events : List DemoEvent) (b : Bench) : Bench :=
  let tracer : Tracer := ⟨owner, DemoEvent.interface⟩
  let b := events.foldl (fun b e => b.emit tracer e.toEvent.method e.toEvent.args) b
  { b with pipeline := b.pipeline.enable false }.run

/-- How a demonstration with so many ticks went. Source: tracelog-cli `cmd_emit`, what it counts. -/
def summary (count : UInt64) (b : Bench) : EmitSummary :=
  let emitted := count.toNat + 2
  match b.handlers[writerId]? with
  | some (.durable writer _) => ⟨emitted, writer.written, writer.failed, b.pipeline.loss.total⟩
  | _ => ⟨emitted, 0, 0, b.pipeline.loss.total⟩

/-- The store that the records went to. -/
def store? (b : Bench) : Option Store :=
  match b.handlers[writerId]? with
  | some (.durable _ link) => some link.store
  | _ => none

end Demonstration

end TraceJournal
