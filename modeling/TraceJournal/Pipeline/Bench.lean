import TraceJournal.Pipeline.Handler
import TraceJournal.Pipeline.Tracer

/-!
# Pipelines at work

A pipeline together with its handlers, the gate at which some of them wait, and the lines that were
logged. After every operation the dispatcher is run until it waits for a record or at the gate.

Library tracelog-pipeline, module `dispatcher`.
-/

namespace TraceJournal

/-- A pipeline with its handlers. -/
structure Bench where
  pipeline : Pipeline
  /-- Every handler ever made, by its number. -/
  handlers : List Handler
  /-- The names under which handlers were made, the last one first. A name belongs to the handler
  that got it last. -/
  names : List (String × HandlerId)
  gateOpen : Bool
  /-- A handler waiting at the gate has noted the record at hand. -/
  noted : Bool
  /-- The time at which events are emitted. -/
  now : Instant
  /-- The lines that were logged, the last one first. -/
  notices : List Notice

namespace Bench

/-- A disabled pipeline without handlers, and an open gate. -/
def create (settings : PipelineSettings) (now : Instant) : Bench :=
  ⟨.create settings, [], [], true, false, now, []⟩

/-- The handlers that were made under a name, the last one first. -/
def handlersNamed (name : String) (b : Bench) : List Handler :=
  b.names.filterMap fun (other, id) => if other = name then b.handlers[id]? else none

/-- What the last handler with a script under a name has noted. It is told also after another kind
of handler has got the name. -/
def noted? (name : String) (b : Bench) : Option (List Record) :=
  (b.handlersNamed name).findSome? fun
    | .scripted _ _ _ seen => some seen
    | _ => none

/-- The store of the last durable handler under a name. It is told also after another kind of
handler has got the name. -/
def store? (name : String) (b : Bench) : Option Store :=
  (b.handlersNamed name).findSome? fun
    | .durable _ link => some link.store
    | _ => none

/-- Makes a handler under a name, which it takes from another one that may have it. -/
def addHandler (name : String) (h : Handler) (b : Bench) : HandlerId × Bench :=
  (b.handlers.length,
    { b with handlers := b.handlers ++ [h], names := (name, b.handlers.length) :: b.names })

/-- Registers a handler; answers whether it was not registered before. Source: tracelog-pipeline
`Pipeline.register_handler`. -/
def register (id : HandlerId) (b : Bench) : Bool × Bench :=
  let (changed, registry) := b.pipeline.registry.register id
  (changed, { b with pipeline := { b.pipeline with registry } })

/-- Removes a handler from the registry; answers whether it was registered. Source:
tracelog-pipeline `Pipeline.unregister_handler`. -/
def unregister (id : HandlerId) (b : Bench) : Bool × Bench :=
  let (changed, registry) := b.pipeline.registry.unregister id
  (changed, { b with pipeline := { b.pipeline with registry } })

/-- Removes all handlers from the registry. Source: tracelog-pipeline `Pipeline.unregister_all`. -/
def unregisterAll (b : Bench) : Bench :=
  { b with pipeline := { b.pipeline with registry := .empty } }

/-- Logs a line. -/
def log (n : Notice) (b : Bench) : Bench := { b with notices := n :: b.notices }

/-- Replaces a handler by what has become of it. -/
def setHandler (id : HandlerId) (h : Handler) (b : Bench) : Bench :=
  { b with handlers := b.handlers.set id h }

/-- Changes the registry as a script says; names that no handler has are passed over. -/
def reshuffle (clear : Bool) (added removed : List String) (b : Bench) : Bench :=
  let b := if clear then b.unregisterAll else b
  let b := (added.filterMap fun name => b.names.lookup name).foldl (fun b id => (b.register id).2) b
  (removed.filterMap fun name => b.names.lookup name).foldl (fun b id => (b.unregister id).2) b

/-- The answer of the handler at hand. Source: tracelog-pipeline `deliver`, for an answer or a
panic. -/
def answer (h : Handler) (record : Record) (error : Option HandlerError) (b : Bench) : Bench :=
  let b := { b with pipeline := b.pipeline.answered error.isSome, noted := false }
  match error with
  | some e => b.log (.handlerFailed h.name record e)
  | none => b

/-- The handler at hand does what its script says. -/
def perform (h : Handler) (act : Act) (record : Record) (b : Bench) : Bench :=
  match act with
  | .collect => b.answer h record none
  | .fail error => b.answer h record (some error)
  | .panic payload =>
    b.answer h record (some (.panicked (payload.getD HandlerError.unknownPayload)))
  | .gate => b.answer h record none
  | .disable => { b with pipeline := b.pipeline.enable false }.answer h record none
  | .reshuffle clear added removed => (b.reshuffle clear added removed).answer h record none

/-- Hands a record to a handler; nothing if the handler waits at the gate. Source: tracelog-pipeline
`TraceHandler.handle`. -/
def call? (id : HandlerId) (record : Record) (b : Bench) : Option Bench :=
  match b.handlers[id]? with
  | none => some { b with pipeline := b.pipeline.answered false }
  | some (.logging level) =>
    some ((b.log (.traced level record)).answer (.logging level) record none)
  | some (.durable writer link) =>
    let (result, writer, link) := writer.handle record link
    let h := Handler.durable writer link
    let b := b.setHandler id h
    match result with
    | .ok none => some (b.answer h record none)
    | .ok (some e) => some ((b.log (.notStored record e)).answer h record none)
    | .error e => some (b.answer h record (some e))
  | some (.scripted name only act seen) =>
    let applies := only.all (· == record.method)
    let waits := applies && !b.gateOpen && (match act with | .gate => true | _ => false)
    if waits && b.noted then none
    else
      let h := Handler.scripted name only act (if b.noted then seen else seen ++ [record])
      let b := b.setHandler id h
      if waits then some { b with noted := true }
      else if applies then some (b.perform h act record)
      else some (b.answer h record none)

/-- One step of the dispatcher, if it can do one. A cancelled one ends before it takes another
record. Source: tracelog-pipeline `run`. -/
def step? (b : Bench) : Option Bench :=
  match b.pipeline.next true with
  | .nothing => none
  | .call id record => b.call? id record
  | _ => some { b with pipeline := b.pipeline.work true false }

/-- At most so many steps of the dispatcher. -/
def runFor : Nat → Bench → Bench
  | 0, b => b
  | rounds + 1, b =>
    match b.step? with
    | some b => runFor rounds b
    | none => b

/-- Runs the dispatcher until it can do nothing. It takes every queued record, hands it to every
handler at most, noting it once before the gate, and finishes it; then it may end. -/
def run (b : Bench) : Bench :=
  b.runFor ((b.pipeline.pending + 2) * (2 * b.handlers.length + 3))

/-- Emits an event, if the pipeline is enabled; the dispatcher does not come to it yet. -/
def offer (t : Tracer) (method : String) (args : List Json) (b : Bench) : Bench :=
  let (report, pipeline) := b.pipeline.emit 0 (t.record b.now method args)
  let b := { b with pipeline }
  match report with
  | some r => b.log (.overflow r)
  | none => b

/-- Emits an event, if the pipeline is enabled. Source: tracelog-pipeline `Tracer.emit`. -/
def emit (t : Tracer) (method : String) (args : List Json) (b : Bench) : Bench :=
  (b.offer t method args).run

end Bench

end TraceJournal
