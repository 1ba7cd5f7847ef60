import TraceJournal.Proofs.Journal.Stepping
import TraceJournal.Proofs.Record.Decoding
import TraceJournal.Proofs.Segment.Place
import TraceJournal.Proofs.Store.Cursor
import TraceJournal.Proofs.Time.Truncation

/-!
# Moves that fail

Before anything of a reader is changed, a cursor is opened at the new checkpoint. That takes up to
four calls, each of which can fail. Whichever does, the reader goes on as if it had not been moved;
and of the store everything is left as it was, unless an anchor was needed and stored and only then
no cursor could be opened.
-/

namespace TraceJournal

namespace Segment

variable {s : Segment} {disk : Disk} {file : Nat} {e : StoreError}

/-- While the path of a store leads to a file, the store can be cut unless it aborts. -/
theorem compact_error_of_file (found : disk.volume.file s.path = .ok file)
    (failed : (s.compact disk).1 = .error e) : e = .frameBeyondEnd := by
  unfold compact at failed
  simp only [found] at failed
  split at failed
  · cases failed
    rfl
  · cases failed

/-- While the path of a store leads to a file, a document that the store does not take changes
nothing, unless the store aborts when it looks for a place to cut. -/
theorem insert_error_of_file {d : Document} (found : disk.volume.file s.path = .ok file)
    (failed : (s.insert d disk).1 = .error e) :
    e = .frameBeyondEnd ∨ (s.insert d disk).2 = (s, disk) := by
  by_cases fits : d.Fits
  · left
    have still : (s.append (Frame.encode d) disk).2.volume.file
        (s.append (Frame.encode d) disk).1.path = .ok file :=
      (Volume.file_write _ _ _ _).trans found
    unfold insert at failed
    rw [if_neg (Nat.not_lt_of_le fits)] at failed
    simp only at failed
    split at failed
    · cases failed
    · split at failed
      · cases failed
      · next uncut =>
        cases failed
        exact compact_error_of_file still (congrArg Prod.fst uncut)
  · right
    rw [insert_of_not_fits s disk fits]

end Segment

/-- A store that has told whether a document matches stays as it is when it does not take one,
unless it aborts. -/
theorem Store.insert_error_of_existsFrom {store : Store} {source : Instant} {b : Bool}
    {d : Document} {e : StoreError} (answered : store.existsFrom source = .ok b)
    (failed : (store.insert d).1 = .error e) :
    e = .frameBeyondEnd ∨ (store.insert d).2 = store := by
  cases store with
  | memory m => cases failed
  | segment s disk =>
    obtain ⟨file, found⟩ : ∃ file, disk.volume.file s.path = .ok file := by
      cases found : disk.volume.file s.path with
      | ok file => exact ⟨file, rfl⟩
      | error cause =>
        simp only [existsFrom, Segment.existsFrom, Segment.documents, Segment.scan, Volume.read,
          found] at answered
        cases answered
    simp only [insert_segment] at failed ⊢
    refine (Segment.insert_error_of_file found failed).imp_right fun same => ?_
    rw [same]

namespace Link

theorem insert_ok {d : Document} {link link' : Link} (h : link.insert d = (.ok (), link')) :
    link'.store = (link.store.insert d).2 := by
  rcases link.insert_cases d with ⟨e, n, unreached⟩ | reached
  · rw [unreached] at h
    cases h
  · rw [reached] at h
    rw [← (Prod.mk.inj h).2]

/-- A document is not taken because the call does not reach the store, or because the store does not
take it. -/
theorem insert_error {d : Document} {link link' : Link} {e : StoreError}
    (h : link.insert d = (.error e, link')) :
    link'.store = link.store ∨
      (link.store.insert d).1 = .error e ∧ link'.store = (link.store.insert d).2 := by
  rcases link.insert_cases d with ⟨e', n, unreached⟩ | reached
  · rw [unreached] at h
    cases h
    exact .inl rfl
  · rw [reached] at h
    obtain ⟨untaken, rfl⟩ := Prod.mk.inj h
    exact .inr ⟨untaken, rfl⟩

end Link

/-! ## Anchors -/

/-- The document keeps a sentinel at a checkpoint, and has no serial number of its own. -/
structure Document.Anchors (d : Document) (checkpoint : Checkpoint) : Prop where
  time_eq : d.time = checkpoint.time
  serial_eq : d.serial = 0
  sentinel : ∃ r, d.toRecord = .ok r ∧ r.isSentinel = true

namespace Reader

/-- A reader is moved to a whole number of milliseconds. -/
theorem exists_target (time : Option Instant) (now : Instant) :
    ∃ t, target time now = .atTime t := by
  cases time with
  | some t => exact ⟨t, rfl⟩
  | none =>
    simp only [target, Checkpoint.after, Checkpoint.after?]
    cases now.nextMillisecond? with
    | none => exact ⟨now, rfl⟩
    | some t => exact ⟨t, rfl⟩

/-- What a reader stores at a checkpoint that it is moved to is an anchor there: the time of the
sentinel is cut to milliseconds once more, which changes nothing. -/
theorem anchors_target (time : Option Instant) (now : Instant) :
    (anchor (target time now)).Anchors (target time now) := by
  obtain ⟨t, moved⟩ := exists_target time now
  rw [moved]
  exact ⟨t.truncate_truncate, rfl, _, Document.toRecord_ofRecord _, beq_self_eq_true _⟩

/-! ## Attempts to open a cursor -/

/-- What an attempt to open a cursor leaves of the store when it fails. -/
inductive Spares (checkpoint : Checkpoint) (link : Link) (cause : StoreError) (link' : Link) :
    Prop where
  /-- The store is as it was. -/
  | kept : link'.store = link.store → Spares checkpoint link cause link'
  /-- A cursor needs an anchor and no document matched; an anchor is stored, but then no cursor
  could be opened. -/
  | anchored {d : Document} {stored : Link} :
    link.requiresAnchor = true → (link.existsFrom checkpoint.time).1 = .ok false →
      d.Anchors checkpoint → link.insert d = (.ok (), stored) →
      stored.tailFrom checkpoint.time = (.error cause, link') →
      link'.store = (link.store.insert d).2 → Spares checkpoint link cause link'

/-- An attempt to open a cursor that fails leaves the store as it was, or with an anchor. -/
theorem spares_of_openCursor {time : Option Instant} {now : Instant} {link link' : Link}
    {cause : StoreError} (failed : openCursor (target time now) link = (.error cause, link'))
    (answers : cause ≠ .frameBeyondEnd) : Spares (target time now) link cause link' := by
  have all := opened (target time now) link
  rw [failed] at all
  generalize answer : (Except.error cause, link') = result at all
  have direct := link.tailFrom_keeps (target time now).time
  cases all with
  | free | met =>
    rw [← answer] at direct
    exact .kept direct.1
  | blind seen =>
    cases answer
    have looked := link.existsFrom_keeps (target time now).time
    rw [seen] at looked
    exact .kept looked.1
  | unmade unmade =>
    cases answer
    have kept := link.serialize_keeps (.sentinel (target time now).time)
    rw [unmade] at kept
    exact .kept kept.1
  | refused _ seen refused =>
    cases answer
    have answered := (Link.existsFrom_ok seen).1
    rcases Link.insert_error refused with same | ⟨untaken, same⟩
    · exact .kept same
    · have kept := (Store.insert_error_of_existsFrom answered untaken).resolve_left answers
      exact .kept (same.trans kept)
  | @anchored stored required seen made =>
    have kept := stored.tailFrom_keeps (target time now).time
    rw [← answer] at kept
    exact .anchored required (congrArg Prod.fst seen) (anchors_target time now) made answer.symm
      (kept.1.trans (Link.insert_ok made))

theorem exists_openCursor_of_error {checkpoint : Checkpoint} {r : Reader} {link : Link}
    {cause : StoreError} (failed : (r.openAt checkpoint link).1 = .error cause) :
    ∃ link', openCursor checkpoint link = (.error cause, link') := by
  cases ho : openCursor checkpoint link with
  | mk result link' =>
    cases result with
    | ok cursor =>
      rw [r.openAt_of_ok ho] at failed
      cases failed
    | error cause' =>
      rw [r.openAt_of_error ho] at failed
      cases failed
      exact ⟨link', rfl⟩

/-- A move fails only if no cursor can be opened, and leaves the reader as it is. -/
theorem moveTo_of_error {time : Option Instant} {now : Instant} {r : Reader} {link : Link}
    {e : JournalError} (failed : (r.moveTo time now link).1 = .error e) :
    ∃ cause link', e = .store cause ∧ openCursor (target time now) link = (.error cause, link') ∧
      r.moveTo time now link = (.error e, r, link') := by
  unfold moveTo at failed ⊢
  by_cases on : r.enabled = true
  · rw [if_pos on] at failed ⊢
    cases ho : openCursor (target time now) link with
    | mk result link' =>
      cases result with
      | ok cursor =>
        simp only [r.openAt_of_ok ho] at failed
        cases failed
      | error cause =>
        simp only [r.openAt_of_error ho] at failed ⊢
        cases failed
        exact ⟨cause, link', rfl, rfl, rfl⟩
  · rw [if_neg on] at failed
    cases failed

/-- When no cursor can be opened after a wait, the worker goes on with the slot that it has. -/
theorem step_of_error {now : Instant} {r : Reader} {link link' : Link} {cause : StoreError}
    (running : r.closed = false) (on : r.enabled = true) (waiting : r.phase = .waiting r.generation)
    (failed : openCursor (.after now) link = (.error cause, link')) :
    r.step now link = ({ r with phase := .ready }, link') := by
  have works : ¬(r.closed || !r.enabled) = true := by
    rw [running, on]
    exact Bool.false_ne_true
  rw [step, if_neg works, waiting]
  simp only [resync, if_true, r.openAt_of_error failed]

/-- When moving a reader fails, or when the worker fails to move it to the present after a wait, the
reader stays as it is, with its generation, its cursor, its buffer and all else; the worker goes on
with the slot that it has. Unless the store aborts in the middle of a cut, the store stays as it is,
too, but for an anchor where one was needed and the cursor could not be opened on it. -/
theorem failed_move_changes_nothing (r : Reader) (link : Link) (now : Instant) :
    (∀ time e, (r.moveTo time now link).1 = .error e →
      (r.moveTo time now link).2.1 = r ∧
      ∃ cause, e = .store cause ∧
        (e.panic? = none → Spares (target time now) link cause (r.moveTo time now link).2.2)) ∧
    ∀ cause, r.closed = false → r.enabled = true → r.phase = .waiting r.generation →
      (r.openAt (.after now) link).1 = .error cause →
      (r.step now link).1 = { r with phase := .ready } ∧
      ((JournalError.store cause).panic? = none →
        Spares (.after now) link cause (r.step now link).2) := by
  have not_aborting {cause : StoreError} (answers : (JournalError.store cause).panic? = none) :
      cause ≠ .frameBeyondEnd := by
    rintro rfl
    cases answers
  constructor
  · intro time e failed
    obtain ⟨cause, link', rfl, unopened, all⟩ := moveTo_of_error failed
    rw [all]
    exact ⟨rfl, cause, rfl, fun answers => spares_of_openCursor unopened (not_aborting answers)⟩
  · intro cause running on waiting failed
    obtain ⟨link', unopened⟩ := exists_openCursor_of_error failed
    rw [step_of_error running on waiting unopened]
    have attempted : openCursor (target none now) link = (.error cause, link') := unopened
    exact ⟨rfl, fun answers => spares_of_openCursor attempted (not_aborting answers)⟩

/-- A store in memory is empty, and no cursor can be opened on it for once. A reader that is moved
keeps what it has, and so does one whose worker has waited; either leaves an anchor in the store. -/
theorem failed_move_changes_nothing_once :
    let time : Instant := ⟨0, 0, by decide, by decide, by decide, by decide⟩
    let link := (Link.reliable (.memory .unbounded)).arm .tailFrom 1
    let r := create 10 true
    let waiting := { r with phase := .waiting 0 }
    (r.moveTo (some time) time link).1 = .error (.store (.unavailable "tail failed")) ∧
      (r.moveTo (some time) time link).2.1 = r ∧
      Spares (.atTime time) link (.unavailable "tail failed") (r.moveTo (some time) time link).2.2 ∧
      (waiting.step time link).1 = r ∧
      Spares (.after time) link (.unavailable "tail failed") (waiting.step time link).2 := by
  intro time link r waiting
  have moved : (r.moveTo (some time) time link).1 =
      .error (.store (.unavailable "tail failed")) := rfl
  obtain ⟨same, cause, known, spares⟩ :=
    (failed_move_changes_nothing r link time).1 (some time) _ moved
  cases known
  have resynced := (failed_move_changes_nothing waiting link time).2 (.unavailable "tail failed")
    rfl rfl rfl rfl
  exact ⟨moved, same, spares rfl, resynced.1, resynced.2 rfl⟩

end Reader

end TraceJournal
