import TraceJournal.Proofs.Journal.Rounds
import TraceJournal.Proofs.Journal.Standing
import TraceJournal.Proofs.Journal.Writing
import TraceJournal.Proofs.Time.Truncation

/-!
# What a reader finds while its cursor does not fail

Documents may be removed from a store while a reader follows it: as long as its cursor does not
fail, it has passed over them before. A running worker then finds everything that was in the store
at the move or was stored since. What of that it buffers is told by whole milliseconds, to which
checkpoints and records are cut alike.
-/

namespace TraceJournal

namespace Checkpoint

/-- What is to be delivered of some documents are the records in them that are no sentinels and not
before the checkpoint. -/
theorem mem_records_iff {c : Checkpoint} {docs : List Document} {record : Record} :
    record ∈ c.records docs ↔
      (∃ d ∈ docs, d.toRecord = .ok record) ∧ record.isSentinel = false ∧
        c.time ≤ record.time := by
  have taken (d : Document) : d.toRecord.toOption = some record ↔ d.toRecord = .ok record := by
    cases d.toRecord <;> simp [Except.toOption]
  simp only [records_eq_filter, Record.ofDocuments, List.mem_filter, List.mem_filterMap, taken,
    admits, decide_eq_true_eq, Bool.not_eq_true', and_assoc]

end Checkpoint

/-- A store that is alone with its file still is when a cursor was opened. -/
theorem Reader.sole_openCursor {link : Link} (sole : link.store.Sole) (c : Checkpoint) :
    (openCursor c link).2.store.Sole := by
  rcases (openCursor_keeps c link).2 with same | ⟨-, stored⟩
  · rw [same]
    exact sole
  · rw [stored]
    exact sole.insert _

namespace Session

/-- The cursor of the reader's slot has just failed. -/
def failed (s : Session) : Bool :=
  match s.reader.phase with
  | .broken slot => slot.generation = s.reader.generation
  | _ => false

/-- The cursor of the reader's slot does not fail during some actions. -/
def Unfailing (s : Session) : List Action → Prop
  | [] => True
  | action :: rest => (s.next action).failed = false ∧ (s.next action).Unfailing rest

instance decidableUnfailing :
    (s : Session) → (actions : List Action) → Decidable (s.Unfailing actions)
  | _, [] => inferInstanceAs (Decidable True)
  | s, action :: rest =>
    have := decidableUnfailing (s.next action) rest
    inferInstanceAs (Decidable (_ ∧ _))

/-! ## What every action keeps -/

/-- A running worker has found what its cursor has passed over, the first documents of the log: all
of them while the session is idle. -/
structure Trails (c : Checkpoint) (log passed : List Document) (slot : Slot)
    (carried : List Record) (s : Session) : Prop extends s.Holds slot carried where
  enabled : s.reader.enabled = true
  opened : s.reader.closed = false
  sole : s.link.store.Sole
  held : ∃ gone, gone ++ s.link.store.held = log
  checkpoint_eq : slot.checkpoint = c
  source_eq : slot.cursor.source = c.time
  place : slot.cursor.At s.link.store log passed
  delivered_eq : s.delivered ++ carried = c.records passed
  idle_eq : s.idle = true → passed = log ∧ carried = []

/-- The cursor of the reader's slot was asked and has failed. -/
theorem Holds.failed_answered {slot : Slot} {carried : List Record} {s : Session}
    (h : s.Holds slot carried) (e : StoreError) (cursor : Cursor) :
    (s.answered slot (.error e, cursor)).failed = true :=
  decide_eq_true h.generation_eq

/-- A running worker has missed nothing of the log so far, wherever its cursor stands. -/
def Complete (c : Checkpoint) (log : List Document) (s : Session) : Prop :=
  ∃ passed slot carried, s.Trails c log passed slot carried

/-- Just after a move nothing of the store has been missed. -/
theorem complete_start {r r' : Reader} {link link' : Link} {time : Option Instant} {now : Instant}
    {c : Checkpoint} (reached : r.Reached) (on : r.enabled = true) (opened : r.closed = false)
    (reliable : link.Reliable) (sole : link.store.Sole)
    (moved : r.moveTo time now link = (.ok c, r', link')) :
    (start r' link').Complete c link'.store.held := by
  obtain ⟨cursor, placed, rfl⟩ := Reader.exists_openCursor on moved
  have reliable' := reliable.openCursor c
  have sole' := Reader.sole_openCursor sole c
  rw [placed] at reliable' sole'
  have tail := Reader.tailFrom_of_openCursor placed
  obtain ⟨skipped, follows, source, before⟩ := Cursor.follows_tailFrom tail
  have place := Cursor.At.of_follows sole' (Cursor.openedOn_tailFrom tail) (List.nil_append _)
    follows
  refine ⟨_, _, [], Holds.start reached reliable' c cursor, on, opened, sole', ⟨[], rfl⟩, rfl,
    source, place, ?_, nofun⟩
  rw [List.nil_append, Checkpoint.records_eq_nil before]
  rfl

namespace Trails

variable {c : Checkpoint} {log passed : List Document} {slot : Slot} {carried : List Record}
  {s : Session}

/-- What is inserted comes to the end of the log, whatever is removed. -/
theorem insert (h : s.Trails c log passed slot carried) (d : Document) :
    ∃ more, (s.next (.insert d)).Complete c (log ++ more) := by
  have reliable := h.reliable.insert d
  simp only [next]
  rw [h.reliable.insert_eq] at reliable ⊢
  cases result : (s.link.store.insert d).1 with
  | ok =>
    obtain ⟨gone, all⟩ := h.held
    obtain ⟨removed, left⟩ := h.sole.held_suffix result
    refine ⟨s.link.store.added d, passed, slot, carried,
      ⟨reliable, h.slot_eq, h.generation_eq, h.carries⟩, h.enabled, h.opened, h.sole.insert d,
      ⟨gone ++ removed, ?_⟩, h.checkpoint_eq, h.source_eq, h.place.insert h.sole result,
      h.delivered_eq, ?_⟩
    · -- What was removed now had come after what was gone before.
      rw [List.append_assoc, left, ← List.append_assoc, all]
    · intro idle
      cases idle
  | error e =>
    have same := h.sole.insert_error result
    rw [same] at reliable ⊢
    refine ⟨[], passed, slot, carried, ?_⟩
    rw [List.append_nil]
    exact ⟨⟨reliable, h.slot_eq, h.generation_eq, h.carries⟩, h.enabled, h.opened, h.sole, h.held,
      h.checkpoint_eq, h.source_eq, h.place, h.delivered_eq, h.idle_eq⟩

/-- An action in which nothing is stored and the cursor of the slot is not asked. -/
private theorem aside (h : s.Trails c log passed slot carried) {carried' : List Record}
    {s' : Session} (kept : Aside slot carried carried' s s') (enabled : s'.reader.enabled = true)
    (opened : s'.reader.closed = false) : s'.Complete c log := by
  refine ⟨passed, slot, carried', kept.holds, enabled, opened, ?_, ?_, h.checkpoint_eq,
    h.source_eq, ?_, kept.delivered_eq.trans h.delivered_eq, ?_⟩
  · rw [kept.link_eq]
    exact h.sole
  · rw [kept.link_eq]
    exact h.held
  · rw [kept.link_eq]
    exact h.place
  · rw [kept.idle_eq]
    intro idle
    exact ⟨(h.idle_eq idle).1, kept.nothing (h.idle_eq idle).2⟩

theorem fetch (h : s.Trails c log passed slot carried) : (s.next .fetch).Complete c log := by
  obtain ⟨buffer, fetched⟩ := s.reader.exists_fetch none
  have reader : (s.next .fetch).reader = { s.reader with buffer } := fetched
  apply h.aside h.toHolds.fetch
  · rw [reader]
    exact h.enabled
  · rw [reader]
    exact h.opened

theorem active (h : s.Trails c log passed slot carried) :
    (s.reader.closed || !s.reader.enabled) = false := by
  rw [h.opened, h.enabled]
  rfl

/-- Asking the cursor of the slot, which does not fail. -/
private theorem ask (h : s.Trails c log passed slot [])
    (unfailing : (s.answered slot (slot.cursor.tryNext s.link.store)).failed = false) :
    (s.answered slot (slot.cursor.tryNext s.link.store)).Complete c log := by
  have asked := h.place.asked h.sole
  have delivered := h.delivered_eq
  rw [List.append_nil] at delivered
  generalize slot.cursor.tryNext s.link.store = answer at asked unfailing ⊢
  cases asked with
  | lost =>
    rw [h.failed_answered] at unfailing
    cases unfailing
  | @nothing skipped cursor source place before all =>
    rw [h.source_eq] at before
    refine ⟨_, { slot with cursor }, [], ⟨h.reliable, rfl, h.generation_eq, .exhausted⟩, h.enabled,
      h.opened, h.sole, h.held, h.checkpoint_eq, source.trans h.source_eq, place, ?_,
      fun _ => ⟨all, rfl⟩⟩
    rw [Checkpoint.records_skipped before, List.append_nil]
    exact delivered
  | @found skipped d cursor source place before matching =>
    rw [h.source_eq] at before matching
    refine ⟨_, { slot with cursor }, _, ⟨h.reliable, rfl, h.generation_eq, .arrived d⟩, h.enabled,
      h.opened, h.sole, h.held, h.checkpoint_eq, source.trans h.source_eq, place, ?_, ?_⟩
    · rw [Checkpoint.records_found before matching, ← delivered, ← h.checkpoint_eq]
      rfl
    · intro idle
      cases idle

/-- A phase of the worker in which the cursor does not fail. -/
theorem work (h : s.Trails c log passed slot carried) (now : Instant)
    (unfailing : (s.next (.work now)).failed = false) : (s.next (.work now)).Complete c log := by
  by_cases asking : s.reader.phase = .asking slot
  · have nothing := h.carried_eq_nil asking
    subst nothing
    rw [h.next_asking h.active asking] at unfailing ⊢
    exact h.ask unfailing
  · obtain ⟨enabled, closed, -⟩ := s.reader.fixed_step now s.link
    obtain ⟨carried', kept⟩ := h.toHolds.work asking now
    exact h.aside kept (enabled.trans h.enabled) (closed.trans h.opened)

/-- Every action in which the cursor does not fail. -/
theorem next (h : s.Trails c log passed slot carried) {action : Action}
    (unfailing : (s.next action).failed = false) :
    ∃ more, (s.next action).Complete c (log ++ more) := by
  cases action with
  | insert d => exact h.insert d
  | work now => exact ⟨[], (List.append_nil log).symm ▸ h.work now unfailing⟩
  | fetch => exact ⟨[], (List.append_nil log).symm ▸ h.fetch⟩

/-- A cursor that is not lost has seen what is left of the documents that it has passed over. -/
theorem tracks (h : s.Trails c log passed slot carried) {gone seen : List Document}
    (all : gone ++ s.link.store.held = log) (front : gone ++ seen = passed)
    (follows : slot.cursor.Follows s.link.store seen) : s.Tracks slot seen carried := by
  refine ⟨h.toHolds, follows, ?_⟩
  intro idle
  obtain ⟨ends, nothing⟩ := h.idle_eq idle
  rw [← front, ← all] at ends
  rw [List.append_cancel_left ends]
  exact ⟨h.sole.documents_eq, nothing⟩

/-- A phase brings the worker nearer to its rest. -/
theorem owed_work (h : s.Trails c log passed slot carried) (room : s.reader.isFull = false)
    {now : Instant} (unfailing : (s.next (.work now)).failed = false) :
    (s.next (.work now)).owed ≤ s.owed - 1 := by
  have running := Reader.Running.of_room h.enabled h.opened room
  by_cases asking : s.reader.phase = .asking slot
  · rcases h.place.place with lost | ⟨gone, seen, all, front, follows⟩
    · -- A cursor that is lost fails as soon as it is asked.
      obtain ⟨e, fails⟩ := lost.tryNext_eq
      rw [h.next_asking h.active asking, fails, h.failed_answered] at unfailing
      cases unfailing
    · exact (h.tracks all front follows).owed_work running room now
  · exact h.toHolds.owed_work running room asking now

end Trails

namespace Complete

variable {c : Checkpoint} {log : List Document} {s : Session}

/-- Any number of actions in which the cursor does not fail. -/
theorem run (h : s.Complete c log) {actions : List Action} (unfailing : s.Unfailing actions) :
    ∃ more, (s.run actions).Complete c (log ++ more) := by
  induction actions generalizing s log with
  | nil => exact ⟨[], (List.append_nil log).symm ▸ h⟩
  | cons action rest ih =>
    obtain ⟨passed, slot, carried, trails⟩ := h
    obtain ⟨first, after⟩ := trails.next unfailing.1
    obtain ⟨more, complete⟩ := ih after unfailing.2
    exact ⟨first ++ more, List.append_assoc log first more ▸ complete⟩

/-- A worker whose cursor does not fail comes to rest, and has missed nothing then. -/
theorem rests (h : s.Complete c log) {times : List Instant} (enough : s.owed ≤ times.length)
    (unfailing : s.Unfailing (times.map .work)) :
    ∃ n ≤ times.length, (s.work (times.take n)).Complete c log ∧
      (s.work (times.take n)).Resting := by
  have rests := @resting_of_nearer
    (fun s times => s.Complete c log ∧ s.Unfailing (times.map .work)) ?_ ?_ s times ⟨h, unfailing⟩
    enough
  · obtain ⟨n, le, ⟨complete, -⟩, resting⟩ := rests
    exact ⟨n, le, complete, resting⟩
  · rintro s _ ⟨⟨passed, slot, carried, trails⟩, -⟩ none_owed
    exact trails.idle_of_owed none_owed
  · rintro s now rest ⟨⟨passed, slot, carried, trails⟩, unfailing⟩ room
    exact ⟨⟨trails.work now unfailing.1, unfailing.2⟩, trails.owed_work room unfailing.1⟩

/-- Nothing has been delivered but records of the log, and all of them while the session is idle. -/
theorem delivered (h : s.Complete c log) :
    s.delivered ⊆ c.records log ∧ (s.idle = true → s.delivered = c.records log) := by
  obtain ⟨passed, slot, carried, trails⟩ := h
  constructor
  · have passed_log := (c.records_sublist_of_prefix trails.place.passed_prefix).subset
    rw [← trails.delivered_eq] at passed_log
    exact List.Subset.trans (List.subset_append_left _ _) passed_log
  · intro idle
    obtain ⟨rfl, rfl⟩ := trails.idle_eq idle
    rw [← trails.delivered_eq, List.append_nil]

end Complete

/-! ## What is buffered of a record -/

/-- A record is delivered only if it is wanted. If it is, it has been whenever the session is idle;
and after enough phases of a worker whose cursor does not fail, there was a moment when it had been,
or when the buffer had no room. -/
structure BuffersIff (record : Record) (wanted : Prop) (s : Session) : Prop where
  only_if : record ∈ s.delivered → wanted
  of_idle : wanted → s.idle = true → record ∈ s.delivered
  soon : wanted → ∃ phases, ∀ times : List Instant, phases ≤ times.length →
    s.Unfailing (times.map .work) → ∃ n ≤ times.length,
      record ∈ (s.work (times.take n)).delivered ∨ (s.work (times.take n)).reader.isFull = true

/-- A record that was stored is wanted if it is not before the checkpoint. -/
theorem Complete.buffersIff {c : Checkpoint} {log : List Document} {s : Session}
    (h : s.Complete c log) {d : Document} (stored : d ∈ log) {record : Record}
    (read : d.toRecord = .ok record) (own : record.isSentinel = false) :
    s.BuffersIff record (c.time ≤ record.time) := by
  refine ⟨?_, ?_, ?_⟩
  · intro there
    exact (Checkpoint.mem_records_iff.mp (h.delivered.1 there)).2.2
  · intro late idle
    rw [h.delivered.2 idle]
    exact Checkpoint.mem_records_iff.mpr ⟨⟨d, stored, read⟩, own, late⟩
  · intro late
    refine ⟨s.owed, ?_⟩
    intro times enough unfailing
    obtain ⟨n, le, complete, idle | full⟩ := h.rests enough unfailing
    · refine ⟨n, le, .inl ?_⟩
      rw [complete.delivered.2 idle]
      exact Checkpoint.mem_records_iff.mpr ⟨⟨d, stored, read⟩, own, late⟩
    · exact ⟨n, le, .inr full⟩

/-- Of all that the store holds, a reader buffers, as long as its cursor does not fail, the records
that are stamped in the millisecond of a time or later, and no sentinel. -/
def FindsFrom (c : Instant) (s : Session) : Prop :=
  ∀ (docs : List Document) (d : Document) (record : Record) (t : Instant),
    s.link.store.documents = .ok docs → d ∈ docs → d.toRecord = .ok record →
      record.isSentinel = false → record.time = t.truncate →
      ∀ after : List Action, s.Unfailing after →
        (s.run after).BuffersIff record (c.truncate ≤ t.truncate)

theorem Complete.findsFrom {c : Instant} {log : List Document} {s : Session}
    (h : s.Complete (.atTime c) log) : s.FindsFrom c := by
  intro docs d record t documents member read own stamped after unfailing
  obtain ⟨more, complete⟩ := h.run unfailing
  obtain ⟨passed, slot, carried, trails⟩ := h
  have held := trails.sole.documents_eq
  rw [documents] at held
  obtain ⟨gone, all⟩ := trails.held
  -- The document may be removed from the store later, but it stays in the log.
  have stored : d ∈ log ++ more := by
    rw [← all, ← Except.ok.inj held]
    exact List.mem_append_left more (List.mem_append_right gone member)
  have buffers := complete.buffersIff stored read own
  rw [stamped] at buffers
  exact buffers

end Session

/-- Checkpoints and records are cut to whole milliseconds alike: in the order of times, once for
all, never to later and by less than a millisecond. A checkpoint therefore admits a record exactly
if that is stamped in its millisecond or later, and so whenever it is not stamped before the time of
the checkpoint. After a move of a reader to a time, whatever is inserted into the store and removed
from it, if the cursor does not fail, the reader at all times finds what the store holds from that
millisecond on, and so does it after a write, which inserts the record under its cut time. -/
theorem Reader.finds_by_whole_milliseconds :
    Instant.CutsToMillis (fun t => (Checkpoint.atTime t).time) ∧
    (∀ owner interface method args,
      Instant.CutsToMillis fun t => (Record.atTime t owner interface method args).time) ∧
    (∀ c t owner interface method args,
      ((Checkpoint.atTime c).admits (.atTime t owner interface method args) = true ↔
        c.truncate ≤ t.truncate) ∧
      (c ≤ t → (Checkpoint.atTime c).admits (.atTime t owner interface method args) = true)) ∧
    ∀ (r r' : Reader) (link link' : Link) (c now : Instant) (cp : Checkpoint)
      (before : List Session.Action),
      r.Reached → r.enabled = true → r.closed = false → link.Reliable → link.store.Sole →
        r.moveTo (some c) now link = (.ok cp, r', link') →
        (Session.start r' link').Unfailing before →
        let s := (Session.start r' link').run before
        s.FindsFrom c ∧
          ∀ t owner interface method args (w w' : Writer) (p : Position) (written : Link),
            w.write (.atTime t owner interface method args) s.link = (.ok p, w', written) →
            let e := (Record.atTime t owner interface method args).withSerial p.serial
            p = ⟨t.truncate, p.serial⟩ ∧ (s.next (.insert (.ofRecord e))).link = written ∧
              (s.next (.insert (.ofRecord e))).FindsFrom c := by
  refine ⟨Instant.cutsToMillis_truncate, fun _ _ _ _ => Instant.cutsToMillis_truncate, ?_, ?_⟩
  · intro c t owner interface method args
    have admits : (Checkpoint.atTime c).admits (.atTime t owner interface method args) = true ↔
        c.truncate ≤ t.truncate := decide_eq_true_iff
    exact ⟨admits, fun later => admits.mpr (Instant.truncate_mono later)⟩
  · intro r r' link link' c now cp before reached on opened reliable sole moved unfailing s
    have target : cp = .atTime c := (opened_of_moveTo on moved).1
    subst target
    have start := Session.complete_start reached on opened reliable sole moved
    obtain ⟨more, complete⟩ := start.run unfailing
    refine ⟨complete.findsFrom, ?_⟩
    intro t owner interface method args w w' p written wrote e
    obtain ⟨passed, slot, carried, trails⟩ := complete
    obtain ⟨stamp, inserted⟩ := Writer.insert_of_write trails.reliable wrote
    obtain ⟨added, grown⟩ := trails.insert (.ofRecord e)
    refine ⟨?_, ?_, grown.findsFrom⟩
    · exact congrArg (Position.mk · p.serial) stamp
    · simp only [Session.next]
      rw [inserted]

/-- In a leap second, a reader is moved to a time behind that of a record, in the same millisecond.
The store has room for one document: the record's document removes the sentinel, which the cursor
has passed over, and the record is buffered. -/
theorem Reader.finds_by_whole_milliseconds_in_leap_second :
    let c : Instant := ⟨59, 1500000999, by decide, by decide, by decide, by decide⟩
    let t : Instant := ⟨59, 1500000001, by decide, by decide, by decide, by decide⟩
    let r : Record := .atTime t "shop" "Orders" "placed" []
    let moved := (Reader.create 2 true).moveTo (some c) c (.reliable (.memory (.bounded 1)))
    let s := (Session.start moved.2.1 moved.2.2).run (List.replicate 10 (.work c))
    let wrote := (Writer.create true).write r s.link
    let after := (s.next (.insert (.ofRecord (r.withSerial 1)))).run (List.replicate 9 (.work c))
    t < c ∧ moved.1 = .ok (.atTime c) ∧ wrote.1 = .ok ⟨t.truncate, 1⟩ ∧
      wrote.2.2.store.documents = .ok [.ofRecord (r.withSerial 1)] ∧
      after.BuffersIff (r.withSerial 1) (c.truncate ≤ t.truncate) ∧
      r.withSerial 1 ∈ after.delivered := by
  intro c t r moved s wrote after
  have answer : moved.1 = .ok (.atTime c) := by decide +kernel
  have position : wrote.1 = .ok ⟨t.truncate, 1⟩ := by decide +kernel
  have documents : wrote.2.2.store.documents = .ok [.ofRecord (r.withSerial 1)] := by
    decide +kernel
  have split : (Reader.create 2 true).moveTo (some c) c (.reliable (.memory (.bounded 1))) =
      (.ok (.atTime c), moved.2.1, moved.2.2) := by
    rw [← answer]
  have split' : (Writer.create true).write r s.link =
      (.ok ⟨t.truncate, 1⟩, wrote.2.1, wrote.2.2) := by
    rw [← position]
  have before : (Session.start moved.2.1 moved.2.2).Unfailing (List.replicate 10 (.work c)) := by
    decide +kernel
  have reliable := Link.reliable_reliable (.memory (.bounded 1))
  obtain ⟨-, writes⟩ := finds_by_whole_milliseconds.2.2.2 _ _ _ _ c c _ _ (.create 2 true) rfl rfl
    reliable trivial split before
  obtain ⟨-, link, finds⟩ := writes t "shop" "Orders" "placed" [] _ _ _ _ split'
  have unfailing : (s.next (.insert (.ofRecord (r.withSerial 1)))).Unfailing
      (List.replicate 9 (.work c)) := by
    decide +kernel
  rw [← link] at documents
  have buffers := finds _ _ (r.withSerial 1) t documents List.mem_cons_self
    (Document.toRecord_ofRecord _) (by decide) rfl _ unfailing
  have idle : after.idle = true := by decide +kernel
  rw [link] at documents
  exact ⟨by decide, answer, position, documents, buffers, buffers.of_idle (by decide) idle⟩

end TraceJournal
