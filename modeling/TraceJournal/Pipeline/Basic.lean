import TraceJournal.Pipeline.Loss
import TraceJournal.Pipeline.Queue
import TraceJournal.Pipeline.Registry
import TraceJournal.Pipeline.Settings
import TraceJournal.Record.Basic

/-!
# Pipelines

Records go from those who emit them through a bounded queue to a dispatcher, which hands each of
them to every registered handler in turn. Emitting never waits: while the pipeline is disabled
nothing happens, and a record for which there is no room is counted as lost. The dispatcher works
in small steps; what a handler answers comes from outside.

Library tracelog-pipeline, modules `pipeline` and `dispatcher`; SPEC_FULL §4.2.
-/

namespace TraceJournal

/-- A record on its way through the handlers that were registered when its delivery began. Source:
tracelog-pipeline `deliver`, in the middle of its loop. -/
structure Delivery where
  record : Record
  /-- The handlers that have not had the record yet. -/
  remaining : List HandlerId
  /-- How many handlers have failed so far. -/
  failures : Nat

/-- What the dispatcher is doing. Source: tracelog-pipeline `Dispatcher`. -/
structure Dispatcher where
  /-- It ends as soon as it has nothing in hand. -/
  cancelled : Bool
  delivery : Option Delivery

/-- A queue of records with its dispatcher. Source: tracelog-pipeline `PipelineShared`. -/
structure Pipeline where
  settings : PipelineSettings
  queue : Queue Record
  registry : Registry
  enabled : Bool
  loss : LossMonitor
  /-- How many records all handlers have had. -/
  delivered : Nat
  /-- How often a handler has failed on a record that all have had. -/
  failures : Nat
  dispatcher : Option Dispatcher

namespace Pipeline

/-- A disabled pipeline without handlers. Source: tracelog-pipeline `Pipeline.new`. -/
def create (settings : PipelineSettings) : Pipeline where
  settings := settings
  queue := .create settings.queueCapacity.toNat
  registry := .empty
  enabled := false
  loss := .create settings.lossInterval.toNat settings.lossThreshold.toNat
  delivered := 0
  failures := 0
  dispatcher := none

/-- How many records wait for delivery. Source: tracelog-pipeline `Pipeline.pending`. -/
def pending (p : Pipeline) : Nat := p.queue.items.length

/-- Emits a record, `elapsed` milliseconds after the previous report of losses; answers the report
that is due. Source: tracelog-pipeline `Tracer.emit`. -/
def emit (elapsed : Nat) (r : Record) (p : Pipeline) : Option LossReport × Pipeline :=
  if p.enabled then
    match p.queue.offer? r with
    | some queue => (none, { p with queue })
    | none =>
      let (report, loss) := p.loss.record elapsed
      (report, { p with loss })
  else (none, p)

/-- Enables the pipeline and starts a dispatcher if there is none, or disables it and has the
dispatcher end. Source: tracelog-pipeline `Pipeline.enable`. -/
def enable (on : Bool) (p : Pipeline) : Pipeline :=
  { p with
    enabled := on
    dispatcher :=
      match p.dispatcher with
      | some d => some { d with cancelled := !on }
      | none => if on then some ⟨false, none⟩ else none }

/-- What the dispatcher can do next. -/
inductive Next where
  /-- Nothing. -/
  | nothing
  /-- It ends. -/
  | stop
  /-- It takes a record from the queue. -/
  | take (record : Record) (queue : Queue Record)
  /-- It hands a record to a handler. -/
  | call (handler : HandlerId) (record : Record)
  /-- All handlers have had the record. -/
  | finish

/-- What the dispatcher does next. A cancelled one that finds a record in the queue may end or take
the record; `ends` says which. Source: tracelog-pipeline `run`, at the top of its loop. -/
def next (ends : Bool) (p : Pipeline) : Next :=
  match p.dispatcher with
  | none => .nothing
  | some ⟨cancelled, none⟩ =>
    match p.queue.take? with
    | none => if cancelled then .stop else .nothing
    | some (record, queue) => if cancelled && ends then .stop else .take record queue
  | some ⟨_, some d⟩ =>
    match d.remaining with
    | [] => .finish
    | h :: _ => .call h d.record

/-- The pipeline whose dispatcher has ended. -/
def stopped (p : Pipeline) : Pipeline := { p with dispatcher := none }

/-- The pipeline whose dispatcher has taken a record; it will go to the handlers registered now.
Source: tracelog-pipeline `run`, its snapshot of the handlers. -/
def taken (record : Record) (queue : Queue Record) (p : Pipeline) : Pipeline :=
  { p with
    queue
    dispatcher := p.dispatcher.map fun d =>
      { d with delivery := some ⟨record, p.registry.handlers, 0⟩ } }

/-- The pipeline in which the handler at hand has answered. Source: tracelog-pipeline `deliver`,
after a handler. -/
def answered (failed : Bool) (p : Pipeline) : Pipeline :=
  { p with
    dispatcher := p.dispatcher.map fun d =>
      { d with
        delivery := d.delivery.map fun delivery =>
          { delivery with
            remaining := delivery.remaining.drop 1
            failures := delivery.failures + if failed then 1 else 0 } } }

/-- The pipeline in which all handlers have had the record. Source: tracelog-pipeline `run`, after a
delivery. -/
def finished (p : Pipeline) : Pipeline :=
  match p.dispatcher with
  | some ⟨cancelled, some delivery⟩ =>
    { p with
      delivered := p.delivered + 1
      failures := p.failures + delivery.failures
      dispatcher := some ⟨cancelled, none⟩ }
  | _ => p

/-- The pipeline after what its dispatcher does next. A handler that is called fails or does not.
Source: tracelog-pipeline `run` and `deliver`. -/
def work (ends failed : Bool) (p : Pipeline) : Pipeline :=
  match p.next ends with
  | .nothing => p
  | .stop => p.stopped
  | .take record queue => p.taken record queue
  | .call _ _ => p.answered failed
  | .finish => p.finished

/-- The form for diagnostics. Source: tracelog-pipeline, the diagnostics of `Pipeline`. -/
def debug (p : Pipeline) : String :=
  let count (n : Nat) : String := String.ofList (Text.decimal n)
  "Pipeline \x7b enabled: " ++ (if p.enabled then "true" else "false") ++
    ", pending: " ++ count p.pending ++ ", delivered: " ++ count p.delivered ++
    ", lost: " ++ count p.loss.total ++ ", handlers: " ++ count p.registry.handlers.length ++
    " \x7d"

end Pipeline

end TraceJournal
