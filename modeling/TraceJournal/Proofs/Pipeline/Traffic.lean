import TraceJournal.Pipeline.Error
import TraceJournal.Pipeline.Tracer
import TraceJournal.Pipeline.Basic

/-!
# The traffic through a pipeline

Events are emitted, the pipeline is enabled and disabled, handlers come and go, and the dispatcher
does one thing after another, all in any order. No record gets lost on the way: those that came into
the queue are those taken from it and those still in it, in one order, and all others are counted.
-/

namespace TraceJournal

/-! ## What a single operation comes to -/

namespace LossMonitor

theorem total_record (elapsed : Nat) (m : LossMonitor) :
    (m.record elapsed).2.total = m.total + 1 := by
  unfold record
  simp only
  split <;> rfl

end LossMonitor

namespace Pipeline

variable {p : Pipeline}

/-- The record that is being delivered, with the handlers that have not had it yet. -/
def delivery? (p : Pipeline) : Option Delivery := p.dispatcher.bind (·.delivery)

/-- The dispatcher has been cancelled and has not ended yet. Whoever has disabled the pipeline waits
for that, and nobody else can enable or disable it meanwhile. -/
def isStopping (p : Pipeline) : Bool := p.dispatcher.any (·.cancelled)

/-- What emitting a record comes to. -/
inductive Emitted (elapsed : Nat) (r : Record) (p : Pipeline) : Option LossReport × Pipeline → Prop
    where
  | ignored : p.enabled = false → Emitted elapsed r p (none, p)
  | accepted {queue : Queue Record} :
    p.enabled = true → p.pending < p.queue.capacity → queue.items = p.queue.items ++ [r] →
      queue.capacity = p.queue.capacity → Emitted elapsed r p (none, { p with queue })
  | rejected :
    p.enabled = true → p.pending = p.queue.capacity →
      Emitted elapsed r p
        ((p.loss.record elapsed).1, { p with loss := (p.loss.record elapsed).2 })

theorem emitted (elapsed : Nat) (r : Record) (p : Pipeline) :
    p.Emitted elapsed r (p.emit elapsed r) := by
  unfold emit
  by_cases on : p.enabled = true
  · rw [if_pos on]
    cases offered : p.queue.offer? r with
    | none => exact .rejected on (Queue.offer?_eq_none_iff.mp offered)
    | some queue =>
      refine .accepted on ?_ (Queue.items_of_offer? offered) (Queue.capacity_of_offer? offered)
      have full : p.queue.items.length ≠ p.queue.capacity := by
        intro full
        rw [Queue.offer?_eq_none_iff.mpr full] at offered
        contradiction
      have := p.queue.length_le
      simp only [pending]
      omega
  · rw [if_neg on]
    exact .ignored (by simpa using on)

/-- What a step of the dispatcher comes to. -/
inductive Worked (ends failed : Bool) (p : Pipeline) : Pipeline → Prop where
  /-- There is no dispatcher, or it waits for a record. -/
  | rests :
    p.next ends = .nothing →
      p.dispatcher = none ∨ p.dispatcher = some ⟨false, none⟩ ∧ p.queue.items = [] →
      Worked ends failed p p
  | stops :
    p.next ends = .stop → p.dispatcher = some ⟨true, none⟩ →
      Worked ends failed p { p with dispatcher := none }
  /-- It takes the oldest record, for the handlers registered now. -/
  | takes {cancelled : Bool} {record : Record} {queue : Queue Record} :
    p.next ends = .take record queue → p.dispatcher = some ⟨cancelled, none⟩ →
      p.queue.items = record :: queue.items → queue.capacity = p.queue.capacity →
      Worked ends failed p
        { p with queue, dispatcher := some ⟨cancelled, some ⟨record, p.registry.handlers, 0⟩⟩ }
  /-- It hands the record to the first of the remaining handlers. -/
  | calls {cancelled : Bool} {d : Delivery} {h : HandlerId} {rest : List HandlerId} :
    p.next ends = .call h d.record → p.dispatcher = some ⟨cancelled, some d⟩ →
      d.remaining = h :: rest →
      Worked ends failed p
        { p with
          dispatcher := some ⟨cancelled, some ⟨d.record, rest, d.failures + failed.toNat⟩⟩ }
  /-- All handlers have had the record. -/
  | finishes {cancelled : Bool} {d : Delivery} :
    p.next ends = .finish → p.dispatcher = some ⟨cancelled, some d⟩ → d.remaining = [] →
      Worked ends failed p
        { p with
          delivered := p.delivered + 1
          failures := p.failures + d.failures
          dispatcher := some ⟨cancelled, none⟩ }

theorem worked (ends failed : Bool) (p : Pipeline) : p.Worked ends failed (p.work ends failed) := by
  have count : (if failed = true then 1 else 0) = failed.toNat := by cases failed <;> rfl
  cases hd : p.dispatcher with
  | none =>
    have next : p.next ends = .nothing := by simp only [Pipeline.next, hd]
    simp only [work, next]
    exact .rests next (.inl hd)
  | some dispatcher =>
    obtain ⟨cancelled, delivery⟩ := dispatcher
    cases delivery with
    | none =>
      cases ht : p.queue.take? with
      | none =>
        cases cancelled with
        | false =>
          have next : p.next ends = .nothing := by simp [Pipeline.next, hd, ht]
          simp only [work, next]
          exact .rests next (.inr ⟨hd, Queue.take?_eq_none_iff.mp ht⟩)
        | true =>
          have next : p.next ends = .stop := by simp [Pipeline.next, hd, ht]
          simp only [work, next]
          exact .stops next hd
      | some oldest =>
        obtain ⟨record, queue⟩ := oldest
        obtain ⟨items, capacity⟩ := Queue.items_of_take? ht
        by_cases stops : (cancelled && ends) = true
        · have next : p.next ends = .stop := by simp only [Pipeline.next, hd, ht, if_pos stops]
          obtain ⟨rfl, rfl⟩ := Bool.and_eq_true_iff.mp stops
          simp only [work, next]
          exact .stops next hd
        · have next : p.next ends = .take record queue := by
            simp only [Pipeline.next, hd, ht, if_neg stops]
          simp only [work, next, taken, hd, Option.map_some]
          exact .takes next hd items capacity
    | some d =>
      cases hr : d.remaining with
      | nil =>
        have next : p.next ends = .finish := by simp only [Pipeline.next, hd, hr]
        simp only [work, next, finished, hd]
        exact .finishes next hd hr
      | cons h rest =>
        have next : p.next ends = .call h d.record := by simp only [Pipeline.next, hd, hr]
        simp only [work, next, answered, hd, Option.map_some, hr, List.drop_succ_cons,
          List.drop_zero, count]
        exact .calls next hd hr

/-- A handler is called with the record that is being delivered, as the first that is to have it. -/
theorem dispatcher_of_call {ends : Bool} {h : HandlerId} {record : Record}
    (call : p.next ends = .call h record) :
    ∃ cancelled d rest, p.dispatcher = some ⟨cancelled, some d⟩ ∧ d.remaining = h :: rest ∧
      d.record = record := by
  have worked := p.worked ends false
  generalize p.work ends false = q at worked
  cases worked with
  | calls next held remaining =>
    rw [next] at call
    cases call
    exact ⟨_, _, _, held, remaining, rfl⟩
  | rests next | stops next | takes next | finishes next =>
    rw [next] at call
    cases call

theorem delivery?_enable (on : Bool) (p : Pipeline) : (p.enable on).delivery? = p.delivery? := by
  unfold enable delivery?
  cases hd : p.dispatcher with
  | none => cases on <;> rfl
  | some d => rfl

end Pipeline

/-! ## Changes of the registry -/

/-- A change of the registered handlers. -/
inductive Registry.Change where
  | register (h : HandlerId)
  | unregister (h : HandlerId)
  | clear

/-- The registry after a change. -/
def Registry.after (r : Registry) : Change → Registry
  | .register h => (r.register h).2
  | .unregister h => (r.unregister h).2
  | .clear => .empty

/-! ## Runs -/

/-- A record handed to a handler, and the error that the handler answered with. -/
structure HandlerCall where
  handler : HandlerId
  record : Record
  error : Option HandlerError

/-- A pipeline with all that has gone through it. -/
structure Traffic where
  pipeline : Pipeline
  /-- The records that were emitted while the pipeline was enabled. -/
  emitted : List Record
  /-- Those that have come into the queue. -/
  accepted : List Record
  /-- Those that have not. -/
  rejected : List Record
  /-- The records taken for delivery, each with the handlers that were registered then. -/
  deliveries : List (Record × List HandlerId)
  calls : List HandlerCall

namespace Traffic

/-- What happens to a pipeline. -/
inductive Action where
  /-- An event is emitted, `elapsed` milliseconds after the previous report of losses. -/
  | emit (tracer : Tracer) (now : Instant) (method : String) (args : List Json) (elapsed : Nat)
  /-- The pipeline is enabled or disabled, by none of its handlers. -/
  | enable (on : Bool)
  /-- Handlers are registered or removed, by a handler or by somebody else. -/
  | change (c : Registry.Change)
  /-- The dispatcher takes a step. If it is cancelled and finds a record, it may end or not; if it
  calls a handler, that one answers with an error or not. -/
  | work (ends : Bool) (error : Option HandlerError)

/-- The traffic through a new pipeline with some handlers. -/
def start (settings : PipelineSettings) (registry : Registry) : Traffic :=
  ⟨{ Pipeline.create settings with registry }, [], [], [], [], []⟩

/-- The traffic after an action. -/
def next (s : Traffic) : Action → Traffic
  | .emit tracer now method args elapsed =>
    let record := tracer.record now method args
    let pipeline := (s.pipeline.emit elapsed record).2
    if s.pipeline.enabled then
      if s.pipeline.pending < pipeline.pending then
        { s with
          pipeline, emitted := s.emitted ++ [record], accepted := s.accepted ++ [record] }
      else
        { s with
          pipeline, emitted := s.emitted ++ [record], rejected := s.rejected ++ [record] }
    else { s with pipeline }
  | .enable on =>
    if s.pipeline.isStopping then s else { s with pipeline := s.pipeline.enable on }
  | .change c =>
    { s with pipeline := { s.pipeline with registry := s.pipeline.registry.after c } }
  | .work ends error =>
    let pipeline := s.pipeline.work ends error.isSome
    match s.pipeline.next ends with
    | .take record _ =>
      { s with
        pipeline, deliveries := s.deliveries ++ [(record, s.pipeline.registry.handlers)] }
    | .call h record => { s with pipeline, calls := s.calls ++ [⟨h, record, error⟩] }
    | _ => { s with pipeline }

/-- The traffic after some actions. -/
def run (s : Traffic) (actions : List Action) : Traffic := actions.foldl next s

@[simp] theorem run_nil (s : Traffic) : s.run [] = s := rfl

@[simp] theorem run_cons (s : Traffic) (action : Action) (rest : List Action) :
    s.run (action :: rest) = (s.next action).run rest := rfl

theorem run_append (s : Traffic) (before after : List Action) :
    s.run (before ++ after) = (s.run before).run after := List.foldl_append

/-- The records taken for delivery. -/
def taken (s : Traffic) : List Record := s.deliveries.map (·.1)

/-- What an emission comes to. -/
theorem next_emit (s : Traffic) (tracer : Tracer) (now : Instant) (method : String)
    (args : List Json) (elapsed : Nat) :
    let record := tracer.record now method args
    let s' := s.next (.emit tracer now method args elapsed)
    (s.pipeline.enabled = false ∧ s' = s) ∨
      (s.pipeline.enabled = true ∧ s.pipeline.pending < s.pipeline.queue.capacity ∧
        ∃ queue : Queue Record, queue.items = s.pipeline.queue.items ++ [record] ∧
          queue.capacity = s.pipeline.queue.capacity ∧
          s' = { s with
            pipeline := { s.pipeline with queue }
            emitted := s.emitted ++ [record]
            accepted := s.accepted ++ [record] }) ∨
      (s.pipeline.enabled = true ∧ s.pipeline.pending = s.pipeline.queue.capacity ∧
        s' = { s with
          pipeline := { s.pipeline with loss := (s.pipeline.loss.record elapsed).2 }
          emitted := s.emitted ++ [record]
          rejected := s.rejected ++ [record] }) := by
  simp only [next]
  have emitted := s.pipeline.emitted elapsed (tracer.record now method args)
  generalize s.pipeline.emit elapsed (tracer.record now method args) = answer at emitted ⊢
  cases emitted with
  | ignored off =>
    left
    simp [off]
  | @accepted queue on room items capacity =>
    right
    left
    refine ⟨on, room, queue, items, capacity, ?_⟩
    have more : s.pipeline.pending < { s.pipeline with queue }.pending := by
      simp only [Pipeline.pending, items, List.length_append, List.length_singleton]
      omega
    dsimp only
    rw [if_pos on, if_pos more]
  | rejected on full =>
    right
    right
    refine ⟨on, full, ?_⟩
    have same : ¬ s.pipeline.pending <
        { s.pipeline with loss := (s.pipeline.loss.record elapsed).2 }.pending := Nat.lt_irrefl _
    dsimp only
    rw [if_pos on, if_neg same]

/-- An emission begins no delivery, calls no handler and changes no registration. -/
theorem emit_keeps (s : Traffic) (tracer : Tracer) (now : Instant) (method : String)
    (args : List Json) (elapsed : Nat) :
    let s' := s.next (.emit tracer now method args elapsed)
    s'.deliveries = s.deliveries ∧ s'.calls = s.calls ∧
      s'.pipeline.registry = s.pipeline.registry := by
  rcases s.next_emit tracer now method args elapsed with
    ⟨_, after⟩ | ⟨_, _, _, _, _, after⟩ | ⟨_, _, after⟩ <;> rw [after] <;> exact ⟨rfl, rfl, rfl⟩

end Traffic

end TraceJournal
