import TraceJournal.Proofs.Pipeline.Passage

/-!
# What was emitted is read

What a reader delivers are the first of the records that a pipeline has accepted, and all of them as
soon as dispatcher and reader have nothing left to do; they come there when they only go on for long
enough.
-/

namespace TraceJournal

namespace Passage

/-! ## What is read -/

/-- The records that were fetched, and then those in the buffer, without their serial numbers. -/
def read (s : Passage) : List Record := s.session.delivered.map Record.unnumbered

/-- The records to be read at a checkpoint, without their serial numbers: some old ones, and then
those that came into the queue, but for the ones that the reader passes over. -/
def due (c : Checkpoint) (old : List Record) (s : Passage) : List Record :=
  (old ++ s.traffic.accepted.filter c.delivers).map Record.unnumbered

/-- No record waits or is being delivered, and the reader has found nothing when it looked last. -/
def isIdle (s : Passage) : Prop := s.traffic.pipeline.isIdle ∧ s.session.idle = true

namespace Inv

variable {c : Checkpoint} {docs : List Document} {base : Nat} {m : MemoryStore}
  {stored : List Record} {s : Passage}

/-- The writer was handed the first of the accepted records. -/
theorem received_prefix (h : s.Inv c docs base m stored) :
    s.traffic.received s.id <+: s.traffic.accepted := by
  rw [h.serves.accepted_eq, List.append_assoc]
  exact List.prefix_append _ _

theorem stored_prefix (h : s.Inv c docs base m stored) :
    stored.map Record.unnumbered <+: s.traffic.accepted.map Record.unnumbered := by
  have received := h.received_prefix.map Record.unnumbered
  rcases h.kept with ⟨_, all⟩ | ⟨_, firsts, _⟩
  · rw [all]
    exact received
  · exact firsts.trans received

/-- As long as there are serial numbers, all accepted records are stored in the end. -/
theorem stored_eq (h : s.Inv c docs base m stored)
    (room : base + s.traffic.accepted.length < UInt64.size) (idle : s.traffic.pipeline.isIdle) :
    stored.map Record.unnumbered = s.traffic.accepted.map Record.unnumbered := by
  have handed : s.traffic.accepted = s.traffic.received s.id := by
    obtain ⟨empty, free⟩ := idle
    rw [h.serves.accepted_eq, empty, Pipeline.awaited, free, Option.elim_none, List.append_nil,
      List.append_nil]
  rcases h.kept with ⟨_, all⟩ | ⟨_, _, beyond⟩
  · rw [handed, all]
  · rw [handed] at room
    exact absurd room (Nat.not_lt_of_le beyond)

/-- What the reader has delivered are the first of the records in the store. -/
theorem delivered (h : s.Inv c docs base m stored) :
    s.session.delivered <+: c.records docs ++ stored.filter c.delivers ∧
      (s.session.idle = true →
        s.session.delivered = c.records docs ++ stored.filter c.delivers) := by
  obtain ⟨all, documents, delivered⟩ := h.sound.delivered
  rw [h.memory] at documents
  have same : all = docs ++ stored.map .ofRecord :=
    (Except.ok.inj documents).symm.trans h.documents_eq
  rw [same, Checkpoint.records_append, Checkpoint.records_ofRecord] at delivered
  exact delivered

theorem read_prefix (h : s.Inv c docs base m stored) : s.read <+: s.due c (c.records docs) := by
  refine (h.delivered.1.map Record.unnumbered).trans ?_
  rw [due, List.map_append, List.map_append, c.map_filter_delivers, c.map_filter_delivers,
    List.prefix_append_right_inj]
  exact h.stored_prefix.filter c.delivers

theorem read_eq (h : s.Inv c docs base m stored)
    (room : base + s.traffic.accepted.length < UInt64.size) (idle : s.isIdle) :
    s.read = s.due c (c.records docs) := by
  rw [read, h.delivered.2 idle.2, due, List.map_append, List.map_append, c.map_filter_delivers,
    c.map_filter_delivers, h.stored_eq room idle.1]

/-- Of what the reader has delivered, the records that the writer has stored have rising serial
numbers. -/
theorem rising (h : s.Inv c docs base m stored) :
    (s.session.delivered.drop (c.records docs).length).Pairwise fun a b => a.serial < b.serial := by
  have numbers : (stored.map (·.serial.toNat)).Pairwise (· < ·) := by
    rw [h.numbered]
    exact List.pairwise_lt_range'
  have all : stored.Pairwise fun a b => a.serial < b.serial :=
    (List.pairwise_map.mp numbers).imp UInt64.lt_iff_toNat_lt.mpr
  have new := h.delivered.1.sublist.drop (c.records docs).length
  rw [List.drop_left] at new
  exact all.sublist (new.trans List.filter_sublist)

end Inv

/-! ## Dispatcher and reader come to rest -/

/-- At least as many rounds as dispatcher and reader take until they have nothing left to do. A
record that comes into the store costs the reader at most fifteen phases. -/
def owed (s : Passage) : Nat := 16 * s.traffic.pipeline.owed + s.session.owed

/-- The passage after a step of the dispatcher, with the answer of a handler that is called, a fetch
and a phase of the worker. -/
def round (s : Passage) (step : Option HandlerError × Instant) : Passage :=
  ((s.next (.dispatch step.1)).next .fetch).next (.read step.2)

theorem traffic_dispatch (s : Passage) (error : Option HandlerError) :
    ∃ error', (s.next (.dispatch error)).traffic = s.traffic.next (.work false error') := by
  rcases s.dispatch_cases error with ⟨record, -, after⟩ | ⟨after, -⟩
  · rw [after]
    exact ⟨_, rfl⟩
  · rw [after]
    exact ⟨_, rfl⟩

theorem accepted_round (s : Passage) (step : Option HandlerError × Instant) :
    (s.round step).traffic.accepted = s.traffic.accepted := by
  obtain ⟨error, traffic⟩ := s.traffic_dispatch step.1
  show (s.next (.dispatch step.1)).traffic.accepted = _
  rw [traffic]
  exact s.traffic.accepted_dispatch [(false, error)]

theorem accepted_rounds (s : Passage) (rounds : List (Option HandlerError × Instant)) :
    (rounds.foldl round s).traffic.accepted = s.traffic.accepted := by
  induction rounds generalizing s with
  | nil => rfl
  | cons step rest ih => exact (ih (s.round step)).trans (s.accepted_round step)

namespace Inv

variable {c : Checkpoint} {docs : List Document} {base : Nat} {m : MemoryStore}
  {stored : List Record} {s : Passage}

theorem isIdle_of_owed (h : s.Inv c docs base m stored) (none_owed : s.owed = 0) : s.isIdle := by
  rw [owed] at none_owed
  exact ⟨Pipeline.isIdle_of_owed (by omega), h.sound.idle_of_owed (by omega)⟩

/-- A step of the dispatcher brings the pipeline nearer to its rest. If it hands a record to the
writer, the reader may have one document more ahead of it. -/
theorem owed_dispatch (h : s.Inv c docs base m stored) (error : Option HandlerError) :
    let s' := s.next (.dispatch error)
    s'.traffic.pipeline.owed ≤ s.traffic.pipeline.owed - 1 ∧
      (s'.session.owed = s.session.owed ∨
        0 < s.traffic.pipeline.owed ∧ s'.session.owed ≤ s.session.owed + 15) := by
  intro s'
  constructor
  · obtain ⟨error', traffic⟩ := s.traffic_dispatch error
    rw [traffic, Traffic.pipeline_work]
    exact (Pipeline.owed_work h.serves.working false error'.isSome).2
  · rcases s.dispatch_cases error with ⟨record, call, after⟩ | ⟨after, -⟩
    · rcases (h.hand call).2 with same | ⟨d, inserted⟩
      · left
        simp only [s', after, same]
      · right
        have busy : 0 < s.traffic.pipeline.owed := by
          obtain ⟨_, d, _, held, -, -⟩ := Pipeline.dispatcher_of_call call
          simp only [Pipeline.owed, Pipeline.delivery?, held, Option.bind_some, Option.elim_some]
          omega
        obtain ⟨slot, seen, carried, session⟩ := h.sound
        have retains : s.session.link.store.Retains m.documents := by
          rw [h.memory]
          rfl
        simp only [s', after, inserted]
        exact ⟨busy, session.owed_insert retains (h.keeps d)⟩
    · left
      simp only [s', after]

/-- A round keeps what holds throughout, and brings dispatcher and reader nearer to their rest. -/
theorem round (h : s.Inv c docs base m stored) (step : Option HandlerError × Instant) :
    (∃ m' stored', (s.round step).Inv c docs base m' stored') ∧
      (s.round step).owed ≤ s.owed - 1 := by
  refine ⟨h.run [.dispatch step.1, .fetch, .read step.2], ?_⟩
  obtain ⟨m', stored', dispatched⟩ := h.next (.dispatch step.1)
  obtain ⟨-, -, read⟩ := dispatched.sound.round dispatched.running step.2
  have ⟨pipeline, session⟩ := h.owed_dispatch step.1
  have after : (s.round step).owed = 16 * (s.next (.dispatch step.1)).traffic.pipeline.owed +
      ((s.next (.dispatch step.1)).session.round step.2).owed := rfl
  -- The sixteen that the pipeline no longer owes outweigh the fifteen that the reader may owe more.
  rw [after, owed]
  omega

theorem rounds (h : s.Inv c docs base m stored) {rounds : List (Option HandlerError × Instant)}
    (enough : s.owed ≤ rounds.length) :
    (∃ m' stored', (rounds.foldl Passage.round s).Inv c docs base m' stored') ∧
      (rounds.foldl Passage.round s).isIdle := by
  induction rounds generalizing s m stored with
  | nil => exact ⟨⟨m, stored, h⟩, h.isIdle_of_owed (Nat.le_zero.mp enough)⟩
  | cons step rest ih =>
    obtain ⟨⟨m', stored', inv⟩, nearer⟩ := h.round step
    rw [List.length_cons] at enough
    exact ih inv (by omega)

end Inv

/-! ## From end to end -/

/-- An idle pipeline is enabled after a reader has been moved, and one of its handlers is a writer
to the store in memory that the reader follows; the store removes nothing, and no call fails.
However emissions, steps of the dispatcher, phases of the reader's worker and fetches alternate,
what was fetched and then what is buffered are the first of the records to be read: the old ones
from the checkpoint on, if there are any, and then the accepted ones from the checkpoint on, without
the sentinels. Nothing but serial numbers has been assigned to the latter, and these rise. As long
as there are serial numbers, nothing is missing once dispatcher and reader are idle; and they are, if
they go on for long enough. -/
theorem reads_emitted {p : Pipeline} {id : HandlerId} {writer : Writer} {r r' : Reader}
    {link link' : Link} {m : MemoryStore} {time : Option Instant} {now : Instant} {c : Checkpoint}
    (idle : p.isIdle) (registered : id ∈ p.registry.handlers) (writes : writer.enabled = true)
    (usable : writer.unusable = false) (reliable : link.Reliable) (memory : link.store = .memory m)
    (unbounded : m.capacity = none) (reached : r.Reached) (running : r.Running)
    (moved : r.moveTo time now link = (.ok c, r', link')) (actions : List Action) :
    let s := (start p id writer r' link').run actions
    let old := c.records m.documents
    s.read <+: s.due c old ∧
    (s.session.delivered.drop old.length).Pairwise (fun a b => a.serial < b.serial) ∧
    ((writer.base m).toNat + s.traffic.accepted.length < UInt64.size →
      (s.isIdle → s.read = s.due c old) ∧
      ∀ rounds : List (Option HandlerError × Instant), s.owed ≤ rounds.length →
        (rounds.foldl round s).isIdle ∧ (rounds.foldl round s).read = s.due c old) := by
  intro s old
  obtain ⟨m', same, started⟩ := Inv.start idle registered writes usable reliable memory unbounded
    reached running moved
  obtain ⟨_, stored, inv⟩ := started.run actions
  have first := inv.read_prefix
  have rising := inv.rising
  rw [same] at first rising
  refine ⟨first, rising, ?_⟩
  intro room
  constructor
  · intro rest
    rw [inv.read_eq room rest, same]
  · intro rounds enough
    obtain ⟨⟨_, _, later⟩, rest⟩ := inv.rounds enough
    refine ⟨rest, ?_⟩
    have accepted := s.accepted_rounds rounds
    rw [← accepted] at room
    rw [later.read_eq room rest, same, due, due, accepted]

/-- The queue has room for two of three records, one of those is before the checkpoint, and the
buffer has room for one. -/
theorem reads_emitted_through_queue_of_two :
    let early : Instant := ⟨0, 0, by decide, by decide, by decide, by decide⟩
    let late : Instant := ⟨5, 0, by decide, by decide, by decide, by decide⟩
    let p : Pipeline := { Pipeline.create ⟨2, 1000, 1000⟩ with registry := ⟨[3, 7], by decide⟩ }
    let tracer : Tracer := ⟨"shop", "Orders"⟩
    let moved := (Reader.create 1 true).moveTo (some late) early (.reliable (.memory .unbounded))
    let actions : List Action := [.emit tracer late "placed" [] 0, .emit tracer early "early" [] 0,
      .emit tracer late "rejected" [] 0, .dispatch none, .dispatch (some (.failed "unreachable")),
      .emit tracer late "paid" [] 0]
    let s := (start p 7 (.create true) moved.2.1 moved.2.2).run actions
    let rounds := List.replicate 180 ((none : Option HandlerError), early)
    s.owed ≤ rounds.length ∧
      (rounds.foldl round s).session.delivered.map (fun r => (r.method, r.serial)) =
        [("placed", 1), ("paid", 3)] ∧
      (rounds.foldl round s).read = s.due (.atTime late) [] := by
  intro early late p tracer moved actions s rounds
  have answer : moved.1 = .ok (.atTime late) := by decide +kernel
  have split : (Reader.create 1 true).moveTo (some late) early (.reliable (.memory .unbounded)) =
      (.ok (.atTime late), moved.2.1, moved.2.2) := by
    rw [← answer]
  have enough : s.owed ≤ rounds.length := by decide +kernel
  have room : ((Writer.create true).base .unbounded).toNat + s.traffic.accepted.length <
      UInt64.size := by
    decide +kernel
  have idle : p.isIdle := ⟨rfl, rfl⟩
  have registered : 7 ∈ p.registry.handlers := by decide
  have writes : (Writer.create true).enabled = true := rfl
  obtain ⟨-, -, complete⟩ := reads_emitted idle registered writes rfl
    (Link.reliable_reliable _) rfl rfl (.create 1 true) ⟨rfl, rfl, by decide⟩ split actions
  exact ⟨enough, by decide +kernel, ((complete room).2 rounds enough).2⟩

end Passage

end TraceJournal
