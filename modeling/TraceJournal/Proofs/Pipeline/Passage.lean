import TraceJournal.Proofs.Journal.Progress
import TraceJournal.Proofs.Journal.Standing
import TraceJournal.Proofs.Journal.Writing
import TraceJournal.Proofs.Pipeline.Fanout

/-!
# From the emission to the reader

A pipeline hands the records that it accepts to a writer, and a reader follows the writer's store.
The records go through a queue, a delivery, a store and a buffer, and nowhere does one get lost,
come twice or overtake another: what is read is what was accepted, in that order.
-/

namespace TraceJournal

/-! ## What a handler gets -/

namespace Pipeline

/-- The record that is being delivered, if a handler is still to have it. -/
def awaited (h : HandlerId) (p : Pipeline) : List Record :=
  p.delivery?.elim [] fun d => if h ∈ d.remaining then [d.record] else []

end Pipeline

namespace Traffic

variable {s : Traffic} {h : HandlerId}

/-- The traffic through a pipeline from now on. -/
def since (p : Pipeline) : Traffic := ⟨p, [], [], [], [], []⟩

theorem received_append_call (s : Traffic) (p : Pipeline) (g : HandlerId) (r : Record)
    (error : Option HandlerError) :
    received h { s with pipeline := p, calls := s.calls ++ [⟨g, r, error⟩] } =
      s.received h ++ if g = h then [r] else [] := by
  simp only [received, handed, List.map_append, List.map_singleton, List.filter_append]
  congr 1
  by_cases same : g = h <;> simp [same]

/-- A registered handler has got, or will get, the records that came into the queue, in that
order. -/
structure Attends (h : HandlerId) (s : Traffic) : Prop where
  registered : h ∈ s.pipeline.registry.handlers
  nodup : ∀ d, s.pipeline.delivery? = some d → d.remaining.Nodup
  accepted_eq : s.accepted = s.received h ++ s.pipeline.awaited h ++ s.pipeline.queue.items

namespace Attends

theorem since {p : Pipeline} (idle : p.isIdle) (registered : h ∈ p.registry.handlers) :
    Attends h (since p) := by
  obtain ⟨empty, free⟩ := idle
  refine ⟨registered, ?_, ?_⟩
  · intro d held
    rw [Traffic.since, free] at held
    cases held
  · simp only [Traffic.since, received, handed, Pipeline.awaited, empty, free]
    rfl

theorem emit (attends : Attends h s) (tracer : Tracer) (now : Instant) (method : String)
    (args : List Json) (elapsed : Nat) :
    Attends h (s.next (.emit tracer now method args elapsed)) := by
  rcases s.next_emit tracer now method args elapsed with
    ⟨_, same⟩ | ⟨_, _, queue, items, _, after⟩ | ⟨_, _, after⟩
  · rw [same]
    exact attends
  · rw [after]
    refine ⟨attends.registered, attends.nodup, ?_⟩
    show s.accepted ++ _ = s.received h ++ s.pipeline.awaited h ++ queue.items
    rw [attends.accepted_eq, items, List.append_assoc _ _ [_]]
  · rw [after]
    exact ⟨attends.registered, attends.nodup, attends.accepted_eq⟩

theorem enable (attends : Attends h s) (on : Bool) : Attends h (s.next (.enable on)) := by
  simp only [next]
  split
  · exact attends
  · refine ⟨attends.registered, ?_, ?_⟩
    · rw [Pipeline.delivery?_enable]
      exact attends.nodup
    · rw [Pipeline.awaited, Pipeline.delivery?_enable]
      exact attends.accepted_eq

theorem work (attends : Attends h s) (ends : Bool) (error : Option HandlerError) :
    Attends h (s.next (.work ends error)) := by
  have worked := s.pipeline.worked ends error.isSome
  have nodup := attends.nodup
  have accepted := attends.accepted_eq
  simp only [next]
  generalize s.pipeline.work ends error.isSome = pipeline at worked ⊢
  cases worked with
  | rests next _ =>
    rw [next]
    exact attends
  | stops next free =>
    rw [next]
    refine ⟨attends.registered, ?_, ?_⟩
    · intro d held
      cases held
    · simpa [Pipeline.awaited, Pipeline.delivery?, free, received, handed] using accepted
  | takes next free items _ =>
    rw [next]
    refine ⟨attends.registered, ?_, ?_⟩
    · intro d held
      cases held
      exact s.pipeline.registry.nodup
    · simp only [Pipeline.awaited, Pipeline.delivery?, free, Option.bind_some, Option.elim_none,
        items, List.append_nil] at accepted
      simp only [Pipeline.awaited, Pipeline.delivery?, Option.bind_some, Option.elim_some,
        if_pos attends.registered, accepted, List.append_assoc, List.singleton_append]
      rfl
  | @calls cancelled d g rest next held remaining =>
    rw [next]
    -- The handler that is called now does not come again in this delivery.
    have unique : (g :: rest).Nodup := by
      rw [← remaining]
      exact nodup d (by rw [Pipeline.delivery?, held, Option.bind_some])
    obtain ⟨once, unique⟩ := List.nodup_cons.mp unique
    refine ⟨attends.registered, ?_, ?_⟩
    · intro d' held'
      cases held'
      exact unique
    · simp only [received_append_call]
      simp only [Pipeline.awaited, Pipeline.delivery?, held, remaining, Option.bind_some,
        Option.elim_some, List.mem_cons] at accepted ⊢
      by_cases mine : g = h
      · subst mine
        simpa [once] using accepted
      · have other : ¬h = g := fun same => mine same.symm
        simpa [mine, other] using accepted
  | finishes next held remaining =>
    rw [next]
    refine ⟨attends.registered, ?_, ?_⟩
    · intro d' held'
      cases held'
    · simpa [Pipeline.awaited, Pipeline.delivery?, held, remaining, received, handed] using accepted

end Attends

/-- A registered handler gets the records that came into the queue, in that order. -/
structure Serves (h : HandlerId) (s : Traffic) : Prop where
  working : s.pipeline.isWorking
  registered : h ∈ s.pipeline.registry.handlers
  nodup : ∀ d, s.pipeline.delivery? = some d → d.remaining.Nodup
  accepted_eq : s.accepted = s.received h ++ s.pipeline.awaited h ++ s.pipeline.queue.items

namespace Serves

theorem attends (serves : Serves h s) : Attends h s :=
  ⟨serves.registered, serves.nodup, serves.accepted_eq⟩

theorem of_attends (working : s.pipeline.isWorking) (attends : Attends h s) : Serves h s :=
  ⟨working, attends.registered, attends.nodup, attends.accepted_eq⟩

theorem since {p : Pipeline} (working : p.isWorking) (idle : p.isIdle)
    (registered : h ∈ p.registry.handlers) : Serves h (since p) :=
  .of_attends working (.since idle registered)

theorem emit (serves : Serves h s) (tracer : Tracer) (now : Instant) (method : String)
    (args : List Json) (elapsed : Nat) :
    Serves h (s.next (.emit tracer now method args elapsed)) := by
  refine .of_attends ?_ (serves.attends.emit tracer now method args elapsed)
  rcases s.next_emit tracer now method args elapsed with
    ⟨_, after⟩ | ⟨_, _, _, _, _, after⟩ | ⟨_, _, after⟩ <;> rw [after] <;> exact serves.working

theorem work (serves : Serves h s) (error : Option HandlerError) :
    Serves h (s.next (.work false error)) := by
  refine .of_attends ?_ (serves.attends.work false error)
  rw [s.pipeline_work]
  exact (Pipeline.owed_work serves.working false error.isSome).1

end Serves

theorem received_work (s : Traffic) {ends : Bool} (error : Option HandlerError) {g : HandlerId}
    {r : Record} (next : s.pipeline.next ends = .call g r) :
    (s.next (.work ends error)).received h = s.received h ++ if g = h then [r] else [] := by
  simp only [Traffic.next, next, received_append_call]

/-- A step that does not call a handler gives it nothing. -/
theorem received_work_of_ne (s : Traffic) {ends : Bool} (error : Option HandlerError)
    (other : ∀ r, s.pipeline.next ends ≠ .call h r) :
    (s.next (.work ends error)).received h = s.received h := by
  simp only [Traffic.next]
  split
  · rfl
  · next g r call =>
    rw [received_append_call, if_neg, List.append_nil]
    rintro rfl
    exact other r call
  · rfl

end Traffic

/-! ## Records without their serial numbers -/

/-- The record as it was before it had a serial number. -/
def Record.unnumbered (r : Record) : Record := r.withSerial 0

namespace Checkpoint

/-- A reader at the checkpoint delivers the record. -/
def delivers (c : Checkpoint) (r : Record) : Bool := c.admits r && !r.isSentinel

/-- The serial number has no influence on that. -/
theorem map_filter_delivers (c : Checkpoint) (records : List Record) :
    (records.filter c.delivers).map Record.unnumbered =
      (records.map Record.unnumbered).filter c.delivers := by
  rw [List.filter_map]
  rfl

theorem records_ofRecord (c : Checkpoint) (records : List Record) :
    c.records (records.map .ofRecord) = records.filter c.delivers := by
  have decoded : (fun d : Document => d.toRecord.toOption) ∘ Document.ofRecord = some := by
    funext r
    rw [Function.comp_apply, Document.toRecord_ofRecord, Except.toOption]
  rw [records_eq_filter, Record.ofDocuments, List.filterMap_map, decoded, List.filterMap_some,
    List.filter_filter]
  congr 1

end Checkpoint

/-- An insertion into a store in memory, over a link without failures. -/
theorem Session.next_insert {s : Session} {m : MemoryStore} (reliable : s.link.Reliable)
    (memory : s.link.store = .memory m) (d : Document) :
    s.next (.insert d) =
      { s with link := { s.link with store := .memory (m.insert d) }, idle := false } := by
  rw [next, reliable.insert_eq, memory]
  rfl

/-! ## The way of the records -/

/-- A pipeline that hands its records to a writer, and a reader on the writer's store. -/
structure Passage where
  traffic : Traffic
  /-- The number under which the writer is registered. -/
  id : HandlerId
  writer : Writer
  session : Session

namespace Passage

/-- What happens on the way. -/
inductive Action where
  /-- An event is emitted, `elapsed` milliseconds after the previous report of losses. -/
  | emit (tracer : Tracer) (now : Instant) (method : String) (args : List Json) (elapsed : Nat)
  /-- The dispatcher takes a step. If it calls a handler other than the writer, that one answers
  with an error or not. -/
  | dispatch (error : Option HandlerError)
  /-- The worker of the reader goes through one phase. -/
  | read (now : Instant)
  /-- All that is buffered is fetched. -/
  | fetch

/-- A pipeline is enabled, among whose handlers there is a writer, after a reader has been moved to
a checkpoint over the link of the writer. -/
def start (p : Pipeline) (id : HandlerId) (writer : Writer) (reader : Reader) (link : Link) :
    Passage :=
  ⟨.since (p.enable true), id, writer, .start reader link⟩

/-- The dispatcher hands a record to the writer. -/
def hand (record : Record) (s : Passage) : Passage :=
  let (answer, writer, link) := s.writer.handle record s.session.link
  let error :=
    match answer with
    | .ok _ => none
    | .error e => some e
  { s with
    traffic := s.traffic.next (.work false error)
    writer
    session := { s.session with
      link, idle := s.session.idle && writer.written == s.writer.written } }

/-- The passage after an action. -/
def next (s : Passage) : Action → Passage
  | .emit tracer now method args elapsed =>
    { s with traffic := s.traffic.next (.emit tracer now method args elapsed) }
  | .dispatch error =>
    match s.traffic.pipeline.next false with
    | .call h record =>
      if h = s.id then s.hand record
      else { s with traffic := s.traffic.next (.work false error) }
    | _ => { s with traffic := s.traffic.next (.work false error) }
  | .read now => { s with session := s.session.next (.work now) }
  | .fetch => { s with session := s.session.next .fetch }

/-- The passage after some actions. -/
def run (s : Passage) (actions : List Action) : Passage := actions.foldl next s

/-- A step of the dispatcher hands a record to the writer, or concerns the pipeline alone. -/
theorem dispatch_cases (s : Passage) (error : Option HandlerError) :
    (∃ record, s.traffic.pipeline.next false = .call s.id record ∧
        s.next (.dispatch error) = s.hand record) ∨
      s.next (.dispatch error) = { s with traffic := s.traffic.next (.work false error) } ∧
        (s.traffic.next (.work false error)).received s.id = s.traffic.received s.id := by
  simp only [next]
  split
  · next h record call =>
    split
    · next mine =>
      rw [mine] at call
      exact .inl ⟨record, call, rfl⟩
    · next other =>
      right
      rw [s.traffic.received_work error call, if_neg other, List.append_nil]
      exact ⟨rfl, rfl⟩
  · next quiet =>
    exact .inr ⟨rfl, s.traffic.received_work_of_ne error fun record => quiet s.id record⟩

/-- What holds throughout, when `docs` were in the store at first, the writer went on from the
number `base`, and has put `stored` into the store. -/
structure Inv (c : Checkpoint) (docs : List Document) (base : Nat) (m : MemoryStore)
    (stored : List Record) (s : Passage) : Prop where
  serves : s.traffic.Serves s.id
  sound : s.session.Sound c
  running : s.session.reader.Running
  writes : s.writer.enabled = true
  memory : s.session.link.store = .memory m
  unbounded : m.capacity = none
  documents_eq : m.documents = docs ++ stored.map .ofRecord
  base_eq : (s.writer.base m).toNat = base + stored.length
  numbered : stored.map (·.serial.toNat) = List.range' (base + 1) stored.length
  /-- The writer has stored what it was handed, as long as there were serial numbers. -/
  kept : s.writer.unusable = false ∧
      stored.map Record.unnumbered = (s.traffic.received s.id).map Record.unnumbered ∨
    s.writer.unusable = true ∧
      stored.map Record.unnumbered <+: (s.traffic.received s.id).map Record.unnumbered ∧
      UInt64.size ≤ base + (s.traffic.received s.id).length

namespace Inv

variable {c : Checkpoint} {docs : List Document} {base : Nat} {m : MemoryStore}
  {stored : List Record} {s : Passage}

/-- Something happens in the pipeline that does not concern the writer. -/
theorem withTraffic (h : s.Inv c docs base m stored) {traffic : Traffic}
    (serves : traffic.Serves s.id) (same : traffic.received s.id = s.traffic.received s.id) :
    Inv c docs base m stored { s with traffic } where
  serves := serves
  sound := h.sound
  running := h.running
  writes := h.writes
  memory := h.memory
  unbounded := h.unbounded
  documents_eq := h.documents_eq
  base_eq := h.base_eq
  numbered := h.numbered
  kept := by
    rw [same]
    exact h.kept

/-- Something happens to the reader that does not concern the store. -/
theorem withSession (h : s.Inv c docs base m stored) {session : Session}
    (sound : session.Sound c) (running : session.reader.Running)
    (same : session.link = s.session.link) : Inv c docs base m stored { s with session } where
  serves := h.serves
  sound := sound
  running := running
  writes := h.writes
  memory := by
    rw [same]
    exact h.memory
  unbounded := h.unbounded
  documents_eq := h.documents_eq
  base_eq := h.base_eq
  numbered := h.numbered
  kept := h.kept

theorem roomy (h : s.Inv c docs base m stored) (length : Nat) : m.excess length = 0 := by
  rw [MemoryStore.excess, h.unbounded]

theorem keeps (h : s.Inv c docs base m stored) (d : Document) : s.session.link.store.Keeps d := by
  rw [h.memory]
  exact h.roomy _

/-- The writer stores a record. -/
theorem store (h : s.Inv c docs base m stored) {record : Record} {traffic : Traffic}
    (serves : traffic.Serves s.id)
    (received : traffic.received s.id = s.traffic.received s.id ++ [record])
    (usable : s.writer.unusable = false) (room : (s.writer.base m).toNat + 1 < UInt64.size) :
    let stamped := record.withSerial (s.writer.base m + 1)
    Inv c docs base (m.insert (.ofRecord stamped)) (stored ++ [stamped])
      { s with
        traffic
        writer := { s.writer with
          serial := some (s.writer.base m + 1), written := s.writer.written + 1 }
        session := s.session.next (.insert (.ofRecord stamped)) } := by
  intro stamped
  -- There is room for one more number, so that it does not wrap around.
  have added : (s.writer.base m + 1).toNat = base + stored.length + 1 := by
    rw [UInt64.toNat_add, UInt64.toNat_one, Nat.mod_eq_of_lt room, h.base_eq]
  obtain ⟨slot, seen, carried, session⟩ := h.sound
  refine ⟨serves, session.insert (h.keeps _), ?_, h.writes, ?_, h.unbounded, ?_, ?_, ?_, ?_⟩
  · rw [Session.next_insert session.reliable h.memory]
    exact h.running
  · rw [Session.next_insert session.reliable h.memory]
  · rw [MemoryStore.documents_insert (h.roomy _), h.documents_eq, List.map_append,
      List.map_singleton, List.append_assoc]
  · rw [Writer.base, Option.getD_some, added, List.length_append, List.length_singleton,
      Nat.add_assoc]
  · rw [List.length_append, List.length_singleton, List.range'_concat, List.map_append,
      h.numbered, List.map_singleton, Nat.one_mul]
    congr 2
    show (s.writer.base m + 1).toNat = _
    omega
  · rcases h.kept with ⟨_, all⟩ | ⟨unusable, -⟩
    · left
      refine ⟨usable, ?_⟩
      show (stored ++ [stamped]).map _ = (traffic.received s.id).map _
      rw [received, List.map_append, List.map_append, all]
      rfl
    · rw [usable] at unusable
      cases unusable

/-- The writer breaks off on a record. -/
theorem breakOff (h : s.Inv c docs base m stored) {record : Record} {traffic : Traffic}
    (serves : traffic.Serves s.id)
    (received : traffic.received s.id = s.traffic.received s.id ++ [record])
    (spent : s.writer.unusable = true ∨ UInt64.size ≤ (s.writer.base m).toNat + 1) :
    Inv c docs base m stored
      { s with traffic, writer := { s.writer with unusable := true } } := by
  refine ⟨serves, h.sound, h.running, h.writes, h.memory, h.unbounded, h.documents_eq, h.base_eq,
    h.numbered, .inr ⟨rfl, ?_⟩⟩
  show stored.map _ <+: (traffic.received s.id).map _ ∧ _ ≤ base + (traffic.received s.id).length
  rw [received, List.map_append, List.length_append, List.length_singleton]
  rcases h.kept with ⟨usable, all⟩ | ⟨_, firsts, beyond⟩
  · have count := congrArg List.length all
    rw [List.length_map, List.length_map] at count
    -- All records before this one are stored, and take up all numbers.
    rcases spent with unusable | beyond
    · rw [usable] at unusable
      cases unusable
    · rw [h.base_eq] at beyond
      exact ⟨all ▸ List.prefix_append _ _, by omega⟩
  · exact ⟨firsts.trans (List.prefix_append _ _), by omega⟩

/-- The writer is handed a record. It stores it, which is an insertion in the reader's session, or
it breaks off. -/
theorem hand (h : s.Inv c docs base m stored) {record : Record}
    (call : s.traffic.pipeline.next false = .call s.id record) :
    (∃ m' stored', (s.hand record).Inv c docs base m' stored') ∧
      ((s.hand record).session = s.session ∨
        ∃ d, (s.hand record).session = s.session.next (.insert d)) := by
  have reliable := h.sound.reliable
  have handled := s.writer.handledInMemory record h.writes reliable h.memory
  have received (error : Option HandlerError) :
      (s.traffic.next (.work false error)).received s.id =
        s.traffic.received s.id ++ [record] := by
    rw [s.traffic.received_work error call, if_pos rfl]
  simp only [Passage.hand]
  generalize s.writer.handle record s.session.link = answer at handled ⊢
  cases handled with
  | stored usable room =>
    -- To the reader this is an insertion by somebody.
    have inserted : { s.session with
        link := { s.session.link with
          store := .memory (m.insert (.ofRecord (record.withSerial (s.writer.base m + 1)))) }
        idle := s.session.idle && s.writer.written + 1 == s.writer.written } =
        s.session.next (.insert (.ofRecord (record.withSerial (s.writer.base m + 1)))) := by
      rw [Session.next_insert reliable h.memory]
      simp
    simp only [inserted]
    exact ⟨⟨_, _, h.store (h.serves.work none) (received none) usable room⟩, .inr ⟨_, rfl⟩⟩
  | @brokenOff e spent =>
    simp only [beq_self_eq_true, Bool.and_true]
    exact ⟨⟨_, _, h.breakOff (h.serves.work (some e)) (received (some e)) spent⟩, .inl trivial⟩

theorem next (h : s.Inv c docs base m stored) (action : Action) :
    ∃ m' stored', (s.next action).Inv c docs base m' stored' := by
  cases action with
  | emit tracer now method args elapsed =>
    refine ⟨m, stored, h.withTraffic (h.serves.emit tracer now method args elapsed) ?_⟩
    have ⟨_, calls, _⟩ := s.traffic.emit_keeps tracer now method args elapsed
    rw [Traffic.received, Traffic.handed, calls]
    rfl
  | dispatch error =>
    rcases s.dispatch_cases error with ⟨record, call, after⟩ | ⟨after, same⟩
    · rw [after]
      exact (h.hand call).1
    · rw [after]
      exact ⟨m, stored, h.withTraffic (h.serves.work error) same⟩
  | read now =>
    obtain ⟨slot, seen, carried, session⟩ := h.sound
    exact ⟨m, stored, h.withSession (session.work now) (h.running.step now _)
      (session.holds.link_work now)⟩
  | fetch =>
    obtain ⟨slot, seen, carried, session⟩ := h.sound
    exact ⟨m, stored, h.withSession session.fetch h.running.fetch rfl⟩

theorem run (h : s.Inv c docs base m stored) (actions : List Action) :
    ∃ m' stored', (s.run actions).Inv c docs base m' stored' := by
  induction actions generalizing s m stored with
  | nil => exact ⟨m, stored, h⟩
  | cons action rest ih =>
    obtain ⟨m', stored', inv⟩ := h.next action
    exact ih inv

/-- The first documents were in the store before, or are a sentinel that the reader stored. -/
theorem start {p : Pipeline} {id : HandlerId} {writer : Writer} {r r' : Reader} {link link' : Link}
    {m : MemoryStore} {time : Option Instant} {now : Instant} {c : Checkpoint} (idle : p.isIdle)
    (registered : id ∈ p.registry.handlers) (writes : writer.enabled = true)
    (usable : writer.unusable = false) (reliable : link.Reliable)
    (memory : link.store = .memory m) (unbounded : m.capacity = none) (reached : r.Reached)
    (running : r.Running) (moved : r.moveTo time now link = (.ok c, r', link')) :
    ∃ m', c.records m'.documents = c.records m.documents ∧
      (start p id writer r' link').Inv c m'.documents (writer.base m).toNat m' [] := by
  have sound := Session.sound_start reached running.enabled reliable moved
  obtain ⟨cursor, opened, rfl⟩ := Reader.exists_openCursor running.enabled moved
  obtain ⟨-, store⟩ := Reader.openCursor_keeps c link
  rw [opened, memory] at store
  have inv {m' : MemoryStore} (memory' : link'.store = .memory m') (unbounded' : m'.capacity = none)
      (base : writer.base m' = writer.base m) :
      (Passage.start p id writer (r.repositioned c cursor) link').Inv c m'.documents
        (writer.base m).toNat m' [] := by
    refine ⟨.since p.isWorking_enable ⟨idle.1, ?_⟩ registered, sound, ?_, writes, memory',
      unbounded', (List.append_nil _).symm, ?_, rfl, .inl ⟨usable, rfl⟩⟩
    · exact (p.delivery?_enable true).trans idle.2
    · exact ⟨running.enabled, running.opened, running.roomy⟩
    · exact congrArg UInt64.toNat base
  -- A sentinel that the reader may have stored is not delivered, and its number is the lowest.
  rcases store with same | ⟨-, anchored⟩
  · exact ⟨m, rfl, inv same unbounded rfl⟩
  · have documents : (m.insert (.ofRecord (.sentinel c.time))).documents =
        m.documents ++ [.ofRecord (.sentinel c.time)] := by
      have roomy : m.excess (m.documents.length + 1) = 0 := by
        rw [MemoryStore.excess, unbounded]
      exact MemoryStore.documents_insert roomy
    refine ⟨m.insert (.ofRecord (.sentinel c.time)), ?_, inv anchored unbounded ?_⟩
    · rw [documents, Checkpoint.records_append, Checkpoint.records_sentinel, List.append_nil]
    · rw [Writer.base, Writer.base, MemoryStore.lastSerial, MemoryStore.lastSerial, documents,
        Document.highestSerial?_append_of_zero m.documents rfl]

end Inv

end Passage

end TraceJournal
