import Mathlib.Data.List.Perm.Subperm
import TraceJournal.Proofs.Journal.Course
import TraceJournal.Proofs.Journal.Delivery
import TraceJournal.Proofs.Record.Decoding
import TraceJournal.Proofs.Store.Log

/-!
# Where a reader stands

A reader that was moved stands at a checkpoint, and its cursor has passed over some first documents
of the store's log. What was fetched since the move, what is buffered and what the worker has in its
hands are records of those documents, each once, though some can be missing. Every phase of the
worker that does not move the reader keeps that, over however unreliable a link.
-/

namespace TraceJournal

open scoped List

/-! ## Records of documents -/

/-- The records of documents, without the sentinels. -/
def Record.ofDocuments (docs : List Document) : List Record :=
  (docs.filterMap fun d => d.toRecord.toOption).filter fun r => !r.isSentinel

namespace Checkpoint

/-- The records from a checkpoint on are those records that it admits. -/
theorem records_eq_filter (c : Checkpoint) (docs : List Document) :
    c.records docs = (Record.ofDocuments docs).filter c.admits := by
  induction docs with
  | nil => rfl
  | cons d rest ih =>
    rw [← List.singleton_append, records_append, ih]
    simp only [Record.ofDocuments, List.filterMap_append, List.filter_append]
    congr 1
    cases hr : d.toRecord with
    | error e => simp [records, hr, Except.toOption, List.filter_cons]
    | ok r =>
      have admits : c.admits r = decide (c.time ≤ d.time) := by
        rw [Checkpoint.admits, Document.time_toRecord hr]
      by_cases matching : c.time ≤ d.time
      · cases hs : r.isSentinel <;> simp [records, hr, hs, admits, matching, Except.toOption]
      · cases hs : r.isSentinel <;> simp [records, hr, hs, admits, matching, Except.toOption]

theorem records_sublist_of_prefix {docs more : List Document} (c : Checkpoint)
    (h : docs <+: more) : c.records docs <+ c.records more := by
  obtain ⟨rest, rfl⟩ := h
  rw [records_append]
  exact List.sublist_append_left _ _

/-- No sentinel is delivered. -/
theorem records_sentinel (c : Checkpoint) (t : Instant) :
    c.records [.ofRecord (.sentinel t)] = [] := by
  have sentinel : (Record.sentinel t).isSentinel = true := beq_self_eq_true _
  simp only [records_eq_filter, Record.ofDocuments, List.filterMap_cons, List.filterMap_nil,
    Document.toRecord_ofRecord, Except.toOption]
  simp [sentinel]

end Checkpoint

/-! ## Stretches -/

/-- What is fetched from one move of a reader to the next. -/
structure Stretch where
  /-- The checkpoint that the reader was moved to. -/
  checkpoint : Checkpoint
  fetched : List Record

/-! ## What the worker has in its hands -/

/-- The records that the worker is about to put into the buffer for a generation. -/
def Phase.carried (generation : Nat) : Phase → List Record
  | arrived slot d | keeping slot d =>
    if slot.generation = generation then (Reader.admitted? slot.checkpoint d).toList else []
  | _ => []

/-- The records that the worker has in its hands when the cursor of a slot has answered. -/
def Slot.picks (slot : Slot) : Except StoreError (Option Document) → List Record
  | .ok (some d) => (Reader.admitted? slot.checkpoint d).toList
  | _ => []

/-- What an older generation brings counts for nothing. -/
theorem Phase.carried_of_ne {phase : Phase} {g : Nat}
    (h : ∀ g', phase.generation? = some g' → g' ≠ g) : phase.carried g = [] := by
  cases phase with
  | arrived slot d => exact if_neg (h _ rfl)
  | keeping slot d => exact if_neg (h _ rfl)
  | _ => rfl

/-! ## What every action keeps -/

/-- The log of the store over a link, and the documents in it that somebody stored: what else is in
the log are sentinels. -/
structure Link.Logged (link : Link) (log stored : List Document) : Prop where
  sole : link.store.Sole
  /-- The store itself says whether a cursor needs an anchor. -/
  own : link.anchor = none
  held : ∃ gone, gone ++ link.store.held = log
  records_eq : ∀ c : Checkpoint, c.records log = c.records stored

/-- The reader stands at the checkpoint of a stretch, and its cursor somewhere in the log. What was
fetched in the stretch, what is buffered and what the worker has in its hands were all found by the
cursor, each record once. -/
structure Stretch.Stands (p : Stretch) (r : Reader) (store : Store) (log passed : List Document)
    (slot : Slot) : Prop where
  slot_eq : r.slot = some slot
  checkpoint_eq : p.checkpoint = slot.checkpoint
  source_eq : slot.cursor.source = slot.checkpoint.time
  place : slot.cursor.At store log passed
  found : p.fetched ++ r.buffer ++ r.phase.carried slot.generation <+~
    slot.checkpoint.records passed

namespace Link.Logged

variable {link : Link} {log stored : List Document}

theorem congr (h : link.Logged log stored) {link' : Link} (store : link'.store = link.store)
    (anchor : link'.anchor = link.anchor) : link'.Logged log stored := by
  constructor
  · rw [store]
    exact h.sole
  · rw [anchor]
    exact h.own
  · rw [store]
    exact h.held
  · exact h.records_eq

/-- A document that is stored comes to the end of the log. -/
theorem insert (h : link.Logged log stored) {d : Document}
    (accepted : (link.store.insert d).1 = .ok ()) {more : List Document}
    (same : ∀ c : Checkpoint, c.records more = c.records (link.store.added d)) :
    Logged { link with store := (link.store.insert d).2 } (log ++ link.store.added d)
      (stored ++ more) := by
  obtain ⟨gone, all⟩ := h.held
  obtain ⟨removed, left⟩ := h.sole.held_suffix accepted
  refine ⟨h.sole.insert d, h.own, ⟨gone ++ removed, ?_⟩, ?_⟩
  · simp only
    rw [List.append_assoc, left, ← List.append_assoc, all]
  · intro c
    rw [Checkpoint.records_append, Checkpoint.records_append, h.records_eq, same]

/-- What is stored over the link comes to the end of the log, and cursors keep their places. -/
theorem insert_link (h : link.Logged log stored) (d : Document) {more : List Document}
    (added : more = if (link.insert d).1.isOk then link.store.added d else []) :
    (link.insert d).2.Logged (log ++ more) (stored ++ more) ∧
      ∀ c passed, Cursor.At link.store log passed c →
        Cursor.At (link.insert d).2.store (log ++ more) passed c := by
  have unchanged {link' : Link} (store : link'.store = link.store)
      (anchor : link'.anchor = link.anchor) : link'.Logged (log ++ []) (stored ++ []) ∧
        ∀ c passed, Cursor.At link.store log passed c →
          Cursor.At link'.store (log ++ []) passed c := by
    rw [List.append_nil, List.append_nil, store]
    exact ⟨h.congr store anchor, fun _ _ here => here⟩
  rcases link.insert_cases d with ⟨e, n, failed⟩ | made
  · rw [failed] at added ⊢
    subst added
    exact unchanged rfl rfl
  · rw [made] at added ⊢
    cases result : (link.store.insert d).1 with
    | error e =>
      rw [result] at added
      subst added
      exact unchanged (h.sole.insert_error result) rfl
    | ok =>
      rw [result] at added
      subst added
      exact ⟨h.insert result fun _ => rfl, fun _ _ here => here.insert h.sole result⟩

/-- Opening a cursor adds at most a sentinel to the log. -/
theorem openCursor (h : link.Logged log stored) (checkpoint : Checkpoint) :
    ∃ more, (Reader.openCursor checkpoint link).2.Logged (log ++ more) stored ∧
      ∀ c passed, Cursor.At link.store log passed c →
        Cursor.At (Reader.openCursor checkpoint link).2.store (log ++ more) passed c := by
  obtain ⟨anchor, same | ⟨anchored, store⟩⟩ := Reader.openCursor_keeps checkpoint link
  · refine ⟨[], ?_, ?_⟩
    · rw [List.append_nil]
      exact h.congr same anchor
    · intro c passed here
      rw [same, List.append_nil]
      exact here
  · -- Only a store in memory needs an anchor, and it never refuses a document.
    obtain ⟨s, memory⟩ : ∃ s, link.store = .memory s := by
      cases hs : link.store with
      | memory s => exact ⟨s, rfl⟩
      | segment s disk =>
        simp only [Link.requiresAnchor, h.own, hs] at anchored
        cases anchored
    have accepted : (link.store.insert (.ofRecord (.sentinel checkpoint.time))).1 = .ok () := by
      rw [memory]
      rfl
    have added : link.store.added (.ofRecord (.sentinel checkpoint.time)) =
        [.ofRecord (.sentinel checkpoint.time)] := by
      rw [memory]
      rfl
    have silent (c : Checkpoint) : c.records [] =
        c.records (link.store.added (.ofRecord (.sentinel checkpoint.time))) := by
      rw [added, c.records_sentinel]
      rfl
    have grown := h.insert accepted silent
    rw [List.append_nil] at grown
    refine ⟨_, grown.congr store anchor, ?_⟩
    intro c passed here
    rw [store]
    exact here.insert h.sole accepted

end Link.Logged

namespace Stretch.Stands

variable {p : Stretch} {r : Reader} {store : Store} {log passed : List Document} {slot : Slot}

/-- A reader that was just moved has found nothing yet. -/
theorem of_moved {checkpoint : Checkpoint} {cursor : Cursor} {r : Reader}
    (slot_eq : r.slot = some ⟨r.generation, checkpoint, cursor⟩) (buffer : r.buffer = [])
    (carried : r.phase.carried r.generation = []) (source : cursor.source = checkpoint.time)
    (place : cursor.At store log passed) :
    Stands ⟨checkpoint, []⟩ r store log passed ⟨r.generation, checkpoint, cursor⟩ := by
  refine ⟨slot_eq, rfl, source, place, ?_⟩
  rw [buffer, carried]
  exact List.nil_subperm

/-- What changes neither slot nor buffer nor what is carried. -/
theorem congr (h : p.Stands r store log passed slot) {r' : Reader} (same : r'.slot = r.slot)
    (buffer : r'.buffer = r.buffer)
    (carried : r'.phase.carried slot.generation = r.phase.carried slot.generation) :
    p.Stands r' store log passed slot := by
  refine ⟨same.trans h.slot_eq, h.checkpoint_eq, h.source_eq, h.place, ?_⟩
  rw [buffer, carried]
  exact h.found

/-- The worker has let go of what it had in its hands. -/
theorem drop (h : p.Stands r store log passed slot) {r' : Reader} (same : r'.slot = r.slot)
    (buffer : r'.buffer = r.buffer) (carried : r'.phase.carried slot.generation = []) :
    p.Stands r' store log passed slot := by
  refine ⟨same.trans h.slot_eq, h.checkpoint_eq, h.source_eq, h.place, ?_⟩
  rw [buffer, carried, List.append_nil]
  exact (List.sublist_append_left _ _).subperm.trans h.found

/-- The log has grown. -/
theorem withStore (h : p.Stands r store log passed slot) {store' : Store} {log' : List Document}
    (grown : ∀ c passed, Cursor.At store log passed c → Cursor.At store' log' passed c) :
    p.Stands r store' log' passed slot :=
  ⟨h.slot_eq, h.checkpoint_eq, h.source_eq, grown _ _ h.place, h.found⟩

/-- The worker has put a record into the buffer that it had in its hands. -/
theorem keep (h : p.Stands r store log passed slot) {record : Record}
    (carried : r.phase.carried slot.generation = [record]) {r' : Reader}
    (same : r'.slot = r.slot) (buffer : r'.buffer = r.buffer ++ [record])
    (carried' : r'.phase.carried slot.generation = []) : p.Stands r' store log passed slot := by
  refine ⟨same.trans h.slot_eq, h.checkpoint_eq, h.source_eq, h.place, ?_⟩
  have found := h.found
  rw [carried] at found
  rw [buffer, carried', List.append_nil, ← List.append_assoc]
  exact found

/-- The cursor has passed over more, and the worker has no document in its hands. -/
private theorem pass (h : p.Stands r store log passed slot) {cursor : Cursor}
    {more : List Document} (source : cursor.source = slot.cursor.source)
    (place : cursor.At store log (passed ++ more)) {r' : Reader}
    (same : r'.slot = some { slot with cursor }) (buffer : r'.buffer = r.buffer)
    (carried : r'.phase.carried slot.generation = []) :
    p.Stands r' store log (passed ++ more) { slot with cursor } := by
  refine ⟨same, h.checkpoint_eq, source.trans h.source_eq, place, ?_⟩
  rw [buffer, carried, List.append_nil, Checkpoint.records_append]
  refine (List.sublist_append_left _ _).subperm.trans (h.found.trans ?_)
  exact (List.sublist_append_left _ _).subperm

/-- The cursor has answered a document, which the worker has in its hands. -/
private theorem pick (h : p.Stands r store log passed slot) {cursor : Cursor}
    {skipped : List Document} {d : Document} (source : cursor.source = slot.cursor.source)
    (place : cursor.At store log (passed ++ (skipped ++ [d])))
    (before : ∀ e ∈ skipped, ¬slot.cursor.source ≤ e.time) (matching : slot.cursor.source ≤ d.time)
    {r' : Reader} (same : r'.slot = some { slot with cursor }) (buffer : r'.buffer = r.buffer)
    (carried : r'.phase.carried slot.generation =
      (Reader.admitted? slot.checkpoint d).toList) :
    p.Stands r' store log (passed ++ (skipped ++ [d])) { slot with cursor } := by
  rw [h.source_eq] at before matching
  refine ⟨same, h.checkpoint_eq, source.trans h.source_eq, place, ?_⟩
  rw [buffer, carried, ← List.append_assoc, Checkpoint.records_found before matching]
  exact (List.subperm_append_right _).mpr ((List.sublist_append_left _ _).subperm.trans h.found)

/-- The cursor of the slot was asked. What it has passed over is more, and if it answers a document,
the worker has that in its hands. -/
theorem ask {link link' : Link} (h : p.Stands r link.store log passed slot)
    (sole : link.store.Sole) {cursor : Cursor} {answer : Except StoreError (Option Document)}
    (asked : link.tryNext slot.cursor = (answer, cursor, link')) {r' : Reader}
    (same : r'.slot = some { slot with cursor }) (buffer : r'.buffer = r.buffer)
    (carried : r'.phase.carried slot.generation = slot.picks answer) :
    ∃ passed', p.Stands r' link.store log passed' { slot with cursor } := by
  obtain ⟨more, place, picked⟩ := h.place.tryNext sole
  have source := (Cursor.openedOn_tryNext h.place.opened).2
  have result := link.asked slot.cursor
  rw [asked] at result
  cases result with
  | unreached =>
    have here := h.place
    rw [← List.append_nil passed] at here
    exact ⟨_, h.pass rfl here same buffer carried⟩
  | poisoned => exact ⟨_, h.pass source place same buffer carried⟩
  | answered =>
    cases found : (slot.cursor.tryNext link.store).1 with
    | error e =>
      rw [found] at carried
      exact ⟨_, h.pass source place same buffer carried⟩
    | ok d? =>
      rw [found] at carried
      cases d? with
      | none => exact ⟨_, h.pass source place same buffer carried⟩
      | some d =>
        obtain ⟨matching, skipped, rfl, before⟩ := picked d found
        exact ⟨_, h.pick source place before matching same buffer carried⟩

/-- The worker asks the cursor of the reader's slot. -/
private theorem asked {link link' : Link} {stored : List Document}
    (h : p.Stands r link.store log passed slot) (logged : link.Logged log stored) {cursor : Cursor}
    {answer : Except StoreError (Option Document)} {phase : Phase}
    (answered : link.tryNext slot.cursor = (answer, cursor, link'))
    (carried : phase.carried slot.generation = slot.picks answer) :
    ∃ log' passed' slot', link'.Logged log' stored ∧
      p.Stands { r.keepCursor { slot with cursor } with phase } link'.store log' passed' slot' := by
  have kept := (link.asked slot.cursor).keeps
  rw [answered] at kept
  have same : ({ r.keepCursor { slot with cursor } with phase } : Reader).slot =
      some { slot with cursor } := by
    simp only [Reader.keepCursor, h.slot_eq, if_true]
  obtain ⟨passed', stands⟩ := h.ask logged.sole answered same (Reader.buffer_keepCursor _ _) carried
  refine ⟨log, passed', { slot with cursor }, logged.congr kept.1 kept.2, ?_⟩
  rw [kept.1]
  exact stands

/-- A phase of a worker that is busy with an older generation. -/
private theorem work_older {link : Link} {stored : List Document}
    (h : p.Stands r link.store log passed slot) (logged : link.Logged log stored)
    (dated : r.Dated) {g : Nat} (busy : r.phase.generation? = some g) (past : g ≠ r.generation)
    (now : Instant) :
    (r.step now link).2.Logged log stored ∧
      p.Stands (r.step now link).1 (r.step now link).2.store log passed slot := by
  obtain ⟨phase, link', stepped, same, later⟩ :=
    Reader.step_superseded busy past dated.slot_eq now link
  have kept : link'.store = link.store ∧ link'.anchor = link.anchor := by
    rcases same with rfl | ⟨cursor, rfl⟩
    · exact ⟨rfl, rfl⟩
    · exact (link.asked cursor).keeps
  have carried : phase.carried slot.generation = [] := by
    apply Phase.carried_of_ne
    intro g' hg
    rcases later with rfl | busy'
    · cases hg
    · rw [busy'] at hg
      cases hg
      rw [dated.slot_eq slot h.slot_eq]
      exact past
  rw [stepped]
  refine ⟨logged.congr kept.1 kept.2, ?_⟩
  rw [kept.1]
  exact h.drop rfl rfl carried

/-- A phase of the worker that does not move the reader. -/
theorem work {link : Link} {stored : List Document} (h : p.Stands r link.store log passed slot)
    (logged : link.Logged log stored) (reached : r.Reached) (now : Instant)
    (unmoved : (r.step now link).1.generation = r.generation) :
    ∃ log' passed' slot', (r.step now link).2.Logged log' stored ∧
      p.Stands (r.step now link).1 (r.step now link).2.store log' passed' slot' := by
  by_cases older : ∃ g, r.phase.generation? = some g ∧ g ≠ r.generation
  · obtain ⟨g, busy, past⟩ := older
    exact ⟨log, passed, slot, h.work_older logged reached.dated busy past now⟩
  · have current (g : Nat) (hg : r.phase.generation? = some g) : g = r.generation := by
      by_contra past
      exact older ⟨g, hg, past⟩
    -- The worker is busy with the reader's own slot, if with any.
    have own {s : Slot} (hs : r.phase.slot? = some s) : s = slot := by
      have same := reached.held s hs (current _ (Phase.generation?_of_slot? hs))
      rw [h.slot_eq] at same
      exact (Option.some.inj same).symm
    have stepped := r.stepped now link
    generalize r.step now link = answer at stepped unmoved ⊢
    cases stepped with
    | off | unplaced => exact ⟨log, passed, slot, logged, h⟩
    | takes hp | pauses hp | turns hp =>
      exact ⟨log, passed, slot, logged, h.drop rfl rfl rfl⟩
    | finds hp answered =>
      cases own (by rw [hp]; rfl)
      exact h.asked logged answered (if_pos rfl)
    | findsNothing hp answered | fails hp answered =>
      cases own (by rw [hp]; rfl)
      exact h.asked logged answered rfl
    | notes hp =>
      refine ⟨log, passed, slot, logged, h.congr (Reader.slot_mark _ _ _)
        (Reader.buffer_mark _ _ _) ?_⟩
      rw [hp]
      rfl
    | drops hp => exact ⟨log, passed, slot, logged, h.drop rfl rfl rfl⟩
    | @keeps s d record hp admitted =>
      cases own (by rw [hp]; rfl)
      have generation := reached.dated.slot_eq slot h.slot_eq
      have carried : r.phase.carried slot.generation = [record] := by
        rw [hp, Phase.carried, if_pos rfl, admitted]
        rfl
      refine ⟨log, passed, slot, logged, h.keep carried ?_ ?_ rfl⟩
      · simp only [Reader.push, generation, if_true]
      · simp only [Reader.push, generation, if_true]
    | rests | gives =>
      exact ⟨log, passed, slot, logged, h.drop (Reader.slot_mark _ _ _)
        (Reader.buffer_mark _ _ _) rfl⟩
    | superseded => exact ⟨log, passed, slot, logged, h.drop rfl rfl rfl⟩
    | stays _ unopened =>
      obtain ⟨more, logged', grown⟩ := logged.openCursor (.after now)
      rw [unopened] at logged' grown
      exact ⟨_, passed, slot, logged', (h.withStore grown).drop rfl rfl rfl⟩
    | resyncs => exact absurd unmoved (Nat.succ_ne_self _)

end Stretch.Stands

end TraceJournal
