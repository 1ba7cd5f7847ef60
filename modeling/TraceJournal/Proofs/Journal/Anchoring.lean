import TraceJournal.Proofs.Journal.Course
import TraceJournal.Proofs.Journal.Reposition
import TraceJournal.Proofs.Store.Sliding

/-!
# Anchors of cursors

A store in memory opens a cursor only while a document matches. A reader that is moved there inserts
a document of its own if none does, and that one matches: its time is the checkpoint, and there is
always room for one document. On a store that needs no anchors a reader never inserts anything.
-/

namespace TraceJournal

/-- What is inserted into a store does not change whether a cursor needs an anchor there. -/
theorem Store.requiresAnchor_insert (store : Store) (d : Document) :
    (store.insert d).2.requiresAnchor = store.requiresAnchor := by
  cases store with
  | memory m => rfl
  | segment s disk => simp only [insert_segment, requiresAnchor]

namespace Reader

/-- On a store in memory, over a link without failures, a cursor is always opened: if no document
matches, an anchor is inserted first, and it is still there then. -/
theorem exists_openCursor_memory {link : Link} {m : MemoryStore} (reliable : link.Reliable)
    (required : link.requiresAnchor = true) (memory : link.store = .memory m)
    (time : Option Instant) (now : Instant) :
    ∃ m' cursor, openCursor (target time now) link =
        (.ok (.memory cursor), { link with store := .memory m' }) ∧
      m'.tailFrom (target time now).time = .ok cursor ∧
      ((∃ d ∈ m.documents, (target time now).time ≤ d.time) ∧ m' = m ∨
        (∀ d ∈ m.documents, ¬(target time now).time ≤ d.time) ∧
          ∃ d, d.Anchors (target time now) ∧ m' = m.insert d ∧
            m'.documents.getLast? = some d) := by
  have anchors := anchors_target time now
  generalize target time now = c at anchors ⊢
  cases seen : m.existsFrom c.time with
  | true =>
    obtain ⟨cursor, found⟩ := (m.exists_tailFrom_iff c.time).mpr seen
    have matching : ∃ d ∈ m.documents, c.time ≤ d.time := by
      simpa [MemoryStore.existsFrom] using seen
    refine ⟨m, cursor, ?_, found, .inl ⟨matching, rfl⟩⟩
    simp only [openCursor, required, if_true, reliable.existsFrom_eq, reliable.tailFrom_eq, memory,
      Store.existsFrom, seen, Store.tailFrom, found]
    rw [← memory]
    rfl
  | false =>
    have early : ∀ d ∈ m.documents, ¬c.time ≤ d.time := by
      simpa [MemoryStore.existsFrom] using seen
    have matches_now : (m.insert (anchor c)).existsFrom c.time = true :=
      MemoryStore.existsFrom_insert (anchors.time_eq ▸ Int.le_refl c.time.rank)
    obtain ⟨cursor, found⟩ := (MemoryStore.exists_tailFrom_iff _ c.time).mpr matches_now
    refine ⟨m.insert (anchor c), cursor, ?_, found,
      .inr ⟨early, anchor c, anchors, rfl, m.getLast?_insert _⟩⟩
    have inserted := reliable.insert (anchor c)
    simp only [openCursor, required, if_true, reliable.existsFrom_eq, reliable.serialize_eq,
      memory, Store.existsFrom, seen]
    rw [reliable.insert_eq] at inserted ⊢
    simp only [memory, Store.insert] at inserted ⊢
    have opened := inserted.tailFrom_eq c.time
    simp only [Store.tailFrom, found] at opened
    exact opened

/-! ## Stores that need no anchors -/

/-- On a segment store in place, over a link without failures, a cursor is opened as it is. -/
theorem exists_openCursor_segment (link : Link) {s : Segment} {disk : Disk}
    (reliable : link.Reliable) (free : link.requiresAnchor = false)
    (segment : link.store = .segment s disk) (placed : s.InPlace disk) (c : Checkpoint) :
    ∃ cursor, openCursor c link = (.ok (.segment cursor), link) := by
  simp only [openCursor, free, Bool.false_eq_true, if_false, reliable.tailFrom_eq, segment,
    Store.tailFrom, placed.tailFrom_eq]
  exact ⟨_, rfl⟩

/-- Of a store nothing is changed, unless a document is inserted where a cursor needs an anchor. -/
def OnlyAnchors (link link' : Link) : Prop :=
  link'.anchor = link.anchor ∧
    (link'.store = link.store ∨
      link.requiresAnchor = true ∧ ∃ d, link'.store = (link.store.insert d).2)

namespace OnlyAnchors

theorem refl (link : Link) : OnlyAnchors link link := ⟨rfl, .inl rfl⟩

theorem openCursor (checkpoint : Checkpoint) (link : Link) :
    OnlyAnchors link (Reader.openCursor checkpoint link).2 := by
  obtain ⟨anchor, store⟩ := openCursor_keeps checkpoint link
  exact ⟨anchor, store.imp_right fun stored => ⟨stored.1, _, stored.2⟩⟩

theorem tryNext {cursor cursor' : Cursor} {link link' : Link}
    {answer : Except StoreError (Option Document)}
    (asked : link.tryNext cursor = (answer, cursor', link')) : OnlyAnchors link link' := by
  have kept := (link.asked cursor).keeps
  rw [asked] at kept
  exact ⟨kept.2, .inl kept.1⟩

theorem moveTo (time : Option Instant) (now : Instant) (r : Reader) (link : Link) :
    OnlyAnchors link (r.moveTo time now link).2.2 := by
  have opened := openCursor (target time now) link
  rcases moveTo_cases time now r link with ⟨cursor, link', made, moved⟩ | ⟨-, same | made, -⟩
  · rw [made] at opened
    rw [moved]
    exact opened
  · rw [same]
    exact .refl link
  · rw [made]
    exact opened

theorem step (now : Instant) (r : Reader) (link : Link) :
    OnlyAnchors link (r.step now link).2 := by
  have stepped := r.stepped now link
  generalize r.step now link = answer at stepped ⊢
  have opened := openCursor (.after now) link
  cases stepped with
  | finds _ asked | findsNothing _ asked | fails _ asked => exact tryNext asked
  | stays _ made | resyncs _ made =>
    rw [made] at opened
    exact opened
  | _ => exact .refl link

end OnlyAnchors

end Reader

namespace Course

/-- A document is inserted by somebody else, or by the reader where a cursor needs an anchor. -/
theorem store_next (s : Course) (action : Action) :
    (s.next action).link.anchor = s.link.anchor ∧
      ((s.next action).link.store = s.link.store ∨
        ∃ d, (action = .insert d ∨ s.link.requiresAnchor = true) ∧
          (s.next action).link.store = (s.link.store.insert d).2) := by
  have of_reader {link' : Link} (h : Reader.OnlyAnchors s.link link') :
      link'.anchor = s.link.anchor ∧ (link'.store = s.link.store ∨
        ∃ d, (action = .insert d ∨ s.link.requiresAnchor = true) ∧
          link'.store = (s.link.store.insert d).2) :=
    ⟨h.1, h.2.imp_right fun ⟨required, d, stored⟩ => ⟨d, .inr required, stored⟩⟩
  cases action with
  | insert d =>
    obtain ⟨anchor, store⟩ := s.link.insert_keeps d
    exact ⟨anchor, store.imp_right fun stored => ⟨d, .inl rfl, stored⟩⟩
  | move time now => exact of_reader (.moveTo time now s.reader s.link)
  | work now => exact of_reader (.step now s.reader s.link)
  | disturb | fetch | close => exact of_reader (.refl s.link)

/-- Whether cursors need anchors stays the same. -/
theorem requiresAnchor_next (s : Course) (action : Action) :
    (s.next action).link.requiresAnchor = s.link.requiresAnchor := by
  obtain ⟨anchor, store⟩ := s.store_next action
  unfold Link.requiresAnchor
  rw [anchor]
  rcases store with same | ⟨d, -, stored⟩
  · rw [same]
  · rw [stored, Store.requiresAnchor_insert]

theorem requiresAnchor_run (s : Course) (actions : List Action) :
    (s.run actions).link.requiresAnchor = s.link.requiresAnchor := by
  induction actions generalizing s with
  | nil => rfl
  | cons action rest ih => rw [run_cons, ih, s.requiresAnchor_next]

end Course

/-- On a store in memory, over a link without failures, moving a reader that is enabled always
succeeds. If a document at or after the checkpoint is stored, the store stays as it is; if none is,
exactly one document is inserted, an anchor at the checkpoint, which is still there when the cursor
is opened. On a store whose cursors need no anchors nothing that is done with a reader, in any
course of whatever else is done and fails, ever changes the store. -/
theorem Reader.anchors_when_needed :
    (∀ (r : Reader) (link : Link) (m : MemoryStore) (time : Option Instant) (now : Instant),
      link.Reliable → link.anchor = none → link.store = .memory m →
      (r.enabled = true → ∃ m' cursor,
        r.moveTo time now link =
          (.ok (target time now), r.repositioned (target time now) (.memory cursor),
            { link with store := .memory m' }) ∧
        m'.tailFrom (target time now).time = .ok cursor ∧
        ((∃ d ∈ m.documents, (target time now).time ≤ d.time) ∧ m' = m ∨
          (∀ d ∈ m.documents, ¬(target time now).time ≤ d.time) ∧
            ∃ d, d.Anchors (target time now) ∧ m' = m.insert d ∧
              m'.documents.getLast? = some d)) ∧
      (r.enabled = false → r.moveTo time now link = (.ok (.atTime (time.getD now)), r, link))) ∧
    ∀ (s : Course) (actions : List Course.Action) (action : Course.Action),
      s.link.requiresAnchor = false → (∀ d, action ≠ .insert d) →
      ((s.run actions).next action).link.store = (s.run actions).link.store := by
  constructor
  · intro r link m time now reliable own memory
    have required : link.requiresAnchor = true := by
      rw [Link.requiresAnchor, own, memory]
      rfl
    constructor
    · intro on
      obtain ⟨m', cursor, opened, found, stored⟩ :=
        exists_openCursor_memory reliable required memory time now
      refine ⟨m', cursor, ?_, found, stored⟩
      simp only [moveTo, on, if_true, r.openAt_of_ok opened]
    · intro off
      simp only [moveTo, off, Bool.false_eq_true, if_false]
  · intro s actions action free others
    have still := (s.requiresAnchor_run actions).trans free
    obtain ⟨-, same | ⟨d, inserted | required, -⟩⟩ := (s.run actions).store_next action
    · exact same
    · exact absurd inserted (others d)
    · exact absurd (still.symm.trans required) Bool.false_ne_true

/-- The store has room for one document, and the one in it is too early: it makes way for the
anchor. On an empty segment store the same move inserts nothing. -/
theorem Reader.anchors_when_needed_in_full_store :
    let early : Instant := ⟨0, 0, by decide, by decide, by decide, by decide⟩
    let late : Instant := ⟨60, 1500000, by decide, by decide, by decide, by decide⟩
    let m := (MemoryStore.bounded 1).insert ⟨early, 1, .null⟩
    let r := create 10 true
    (∃ cursor m' d, r.moveTo (some late) late (.reliable (.memory m)) =
        (.ok (.atTime late), r.repositioned (.atTime late) (.memory cursor),
          .reliable (.memory m')) ∧
      d.Anchors (.atTime late) ∧ m'.documents = [d]) ∧
      ∃ s disk, Segment.openAt ⟨"traces"⟩ 1000 (.ofFile []) = (.ok s, disk) ∧
        let course : Course := ⟨r, .reliable (.segment s disk)⟩
        (∃ cursor, (course.next (.move (some late) late)).reader =
          r.repositioned (.atTime late) (.segment cursor)) ∧
        (course.next (.move (some late) late)).link.store = .segment s disk := by
  intro early late m r
  obtain ⟨m', cursor, moved, -, stored⟩ := (anchors_when_needed.1 r (.reliable (.memory m)) m
    (some late) late (Link.reliable_reliable _) rfl rfl).1 rfl
  have unmatched : ¬∃ d ∈ m.documents, (target (some late) late).time ≤ d.time := by
    rintro ⟨d, member, matching⟩
    rw [List.mem_singleton.mp member] at matching
    exact absurd matching (by decide)
  constructor
  · obtain ⟨matching, -⟩ | ⟨-, d, anchors, rfl, -⟩ := stored
    · exact absurd matching unmatched
    · exact ⟨cursor, _, d, moved, anchors, rfl⟩
  · obtain ⟨s, disk, opened, -⟩ := Segment.openAt_of_file (Disk.file_ofFile []) 1000
    refine ⟨s, disk, opened, ?_⟩
    intro course
    obtain ⟨cursor, there⟩ := exists_openCursor_segment course.link (Link.reliable_reliable _) rfl
      rfl (Segment.inPlace_of_openAt opened).1 (target (some late) late)
    have on : course.reader.enabled = true := rfl
    constructor
    · refine ⟨cursor, ?_⟩
      simp only [Course.next, moveTo, if_pos on, course.reader.openAt_of_ok there]
      rfl
    · have own (d : Document) : Course.Action.move (some late) late ≠ .insert d := by
        intro same
        cases same
      have kept := anchors_when_needed.2 course [] (.move (some late) late) rfl own
      rw [Course.run_nil] at kept
      exact kept

end TraceJournal
