import Mathlib.Control.Monad.Basic
import TraceJournal.Proofs.Journal.Generation
import TraceJournal.Proofs.Record.Decoding
import TraceJournal.Proofs.Store.Cursor

/-!
# What a reader delivers

After a move, a reader delivers the records of the documents from its checkpoint on, each once and
in the order of the store. What was fetched, what is buffered and what the worker has in its hands
are together the records of what the cursor has seen; that holds after the move and is kept by every
insertion, every phase of the worker and every fetch, in any order.
-/

namespace TraceJournal

/-! ## The records to be delivered -/

namespace Checkpoint

/-- The records of those documents that are not before the checkpoint, without the sentinels. -/
def records (c : Checkpoint) (docs : List Document) : List Record :=
  ((docs.filter fun d => c.time ≤ d.time).filterMap fun d => d.toRecord.toOption).filter
    fun r => !r.isSentinel

theorem records_append (c : Checkpoint) (docs more : List Document) :
    c.records (docs ++ more) = c.records docs ++ c.records more := by
  simp only [records, List.filter_append, List.filterMap_append]

theorem records_eq_nil {c : Checkpoint} {docs : List Document}
    (h : ∀ d ∈ docs, ¬c.time ≤ d.time) : c.records docs = [] := by
  rw [records, Document.filter_eq_nil_of_before h]
  rfl

end Checkpoint

/-- What the worker keeps of a document from the checkpoint on is what is to be delivered of it. -/
theorem Checkpoint.records_singleton {c : Checkpoint} {d : Document} (h : c.time ≤ d.time) :
    c.records [d] = (Reader.admitted? c d).toList := by
  have matching : ([d].filter fun d => c.time ≤ d.time) = [d] := by simp [h]
  rw [records, matching, Reader.admitted?]
  cases hr : d.toRecord with
  | error e => simp [hr, Except.toOption]
  | ok r =>
    have admits : c.admits r = true := by
      rw [Checkpoint.admits, Document.time_toRecord hr]
      exact decide_eq_true h
    cases hs : r.isSentinel <;> simp [hr, hs, admits, Except.toOption]

/-- Documents before the checkpoint add nothing to what is to be delivered. -/
theorem Checkpoint.records_skipped {c : Checkpoint} {skipped : List Document}
    (before : ∀ d ∈ skipped, ¬c.time ≤ d.time) (docs : List Document) :
    c.records (docs ++ skipped) = c.records docs := by
  rw [records_append, records_eq_nil before, List.append_nil]

/-- The first document that is not before the checkpoint adds its record. -/
theorem Checkpoint.records_found {c : Checkpoint} {skipped : List Document} {d : Document}
    (before : ∀ d ∈ skipped, ¬c.time ≤ d.time) (matching : c.time ≤ d.time)
    (docs : List Document) :
    c.records (docs ++ skipped ++ [d]) = c.records docs ++ (Reader.admitted? c d).toList := by
  rw [records_append, records_skipped before, records_singleton matching]

/-! ## Sessions -/

/-- A reader and its link, with all that was fetched since the reader was moved. -/
structure Session where
  reader : Reader
  link : Link
  /-- The results of all fetches, one after the other. -/
  fetched : List Record
  /-- The cursor of the present generation found nothing when it was last asked, and nothing was
  inserted since. -/
  idle : Bool

namespace Session

/-- What happens in a session. -/
inductive Action where
  /-- Somebody inserts a document. -/
  | insert (d : Document)
  /-- The worker goes through one phase; `now` is the present then. -/
  | work (now : Instant)
  /-- All that is buffered is fetched. -/
  | fetch

/-- The session just after a move. -/
def start (reader : Reader) (link : Link) : Session := ⟨reader, link, [], false⟩

/-- Whether the cursor found nothing when it was last asked, after a phase of the worker. -/
def idleAfter (before after : Reader) (idle : Bool) : Bool :=
  match before.phase with
  | .asking slot =>
    if slot.generation = before.generation then
      match after.phase with
      | .exhausted _ => true
      | _ => false
    else idle
  | _ => idle

/-- The session after an action. -/
def next (s : Session) : Action → Session
  | .insert d =>
    match s.link.insert d with
    | (.ok (), link) => { s with link, idle := false }
    | (.error _, link) => { s with link }
  | .work now =>
    let (reader, link) := s.reader.step now s.link
    { s with reader, link, idle := idleAfter s.reader reader s.idle }
  | .fetch =>
    let (records, reader) := s.reader.fetch none
    { s with reader, fetched := s.fetched ++ records }

/-- The session after some actions. -/
def run (s : Session) (actions : List Action) : Session := actions.foldl next s

/-- No insertion among some actions removes anything from the store. -/
def Keeping (s : Session) : List Action → Prop
  | [] => True
  | .insert d :: rest => s.link.store.Keeps d ∧ (s.next (.insert d)).Keeping rest
  | action :: rest => (s.next action).Keeping rest

instance decidableKeeping : (s : Session) → (actions : List Action) → Decidable (s.Keeping actions)
  | _, [] => inferInstanceAs (Decidable True)
  | s, .insert d :: rest =>
    have := decidableKeeping (s.next (.insert d)) rest
    inferInstanceAs (Decidable (_ ∧ _))
  | s, .work now :: rest => decidableKeeping (s.next (.work now)) rest
  | s, .fetch :: rest => decidableKeeping (s.next .fetch) rest

/-- What was fetched, and then what is buffered. -/
def delivered (s : Session) : List Record := s.fetched ++ s.reader.buffer

end Session

/-- A phase that changes nothing of the reader does not make a session idle. -/
theorem Session.idleAfter_self {r : Reader} {idle : Bool} (h : idleAfter r r idle = true) :
    idle = true := by
  unfold idleAfter at h
  cases hp : r.phase with
  | asking slot =>
    simp only [hp] at h
    split at h
    · cases h
    · exact h
  | _ => simpa only [hp] using h

theorem Session.idleAfter_older {before after : Reader} {idle : Bool} {g : Nat}
    (busy : before.phase.generation? = some g) (older : g ≠ before.generation) :
    idleAfter before after idle = idle := by
  unfold idleAfter
  split
  · next slot hp =>
    rw [hp] at busy
    cases busy
    rw [if_neg older]
  · rfl

/-! ## What the worker has in its hands -/

/-- The records that the worker, in some phase, is about to buffer for a slot. What it does with an
older slot counts for nothing. -/
inductive Phase.Carries (slot : Slot) : Phase → List Record → Prop where
  | ready : Carries slot .ready []
  | holding : Carries slot (.holding slot) []
  | asking : Carries slot (.asking slot) []
  | arrived (d : Document) :
    Carries slot (.arrived slot d) (Reader.admitted? slot.checkpoint d).toList
  | keeping (d : Document) :
    Carries slot (.keeping slot d) (Reader.admitted? slot.checkpoint d).toList
  | exhausted : Carries slot (.exhausted slot) []
  | older {phase : Phase} {g : Nat} :
    phase.generation? = some g → g ≠ slot.generation → Carries slot phase []

/-! ## Phases of the worker -/

namespace Session

/-- The reader has a slot, the worker is busy with that or with an older one, and no call fails;
`carried` are the records that the worker is about to buffer. -/
structure Holds (slot : Slot) (carried : List Record) (s : Session) : Prop where
  reliable : s.link.Reliable
  slot_eq : s.reader.slot = some slot
  generation_eq : slot.generation = s.reader.generation
  carries : s.reader.phase.Carries slot carried

/-- An action in which nothing is stored and the reader's cursor is not asked leaves the link and
the slot as they are. A record that the worker had in its hands is buffered, or still there. -/
structure Aside (slot : Slot) (carried carried' : List Record) (s s' : Session) : Prop where
  holds : s'.Holds slot carried'
  link_eq : s'.link = s.link
  idle_eq : s'.idle = s.idle
  delivered_eq : s'.delivered ++ carried' = s.delivered ++ carried
  nothing : carried = [] → carried' = []

namespace Holds

variable {slot : Slot} {carried : List Record} {s : Session}

/-- Just after a move, the worker has nothing in its hands for the new slot. -/
theorem start {r : Reader} (reached : r.Reached) {link : Link} (reliable : link.Reliable)
    (c : Checkpoint) (cursor : Cursor) :
    (start (r.repositioned c cursor) link).Holds ⟨r.generation + 1, c, cursor⟩ [] := by
  refine ⟨reliable, rfl, rfl, ?_⟩
  simp only [Session.start, Reader.repositioned]
  cases hp : r.phase.generation? with
  | none =>
    cases hr : r.phase with
    | ready => exact .ready
    | _ => rw [hr] at hp; cases hp
  | some g =>
    have le := reached.dated.phase_le g hp
    refine .older hp ?_
    simp only
    omega

/-- What the worker does with an older slot concerns another generation than the reader's. -/
theorem ne_of_older (h : s.Holds slot carried) {g : Nat} (older : g ≠ slot.generation) :
    g ≠ s.reader.generation :=
  h.generation_eq ▸ older

/-- The worker has nothing in its hands when it asks the cursor of the reader's slot. -/
theorem carried_eq_nil (h : s.Holds slot carried) (asking : s.reader.phase = .asking slot) :
    carried = [] := by
  have carries := h.carries
  rw [asking] at carries
  cases carries with
  | asking => rfl
  | older => rfl

/-- A session becomes idle only when the cursor of the reader's slot is asked. -/
theorem idleAfter_eq (h : s.Holds slot carried) (aside : s.reader.phase ≠ .asking slot)
    (after : Reader) : idleAfter s.reader after s.idle = s.idle := by
  have carries := h.carries
  generalize hp : s.reader.phase = phase at carries aside
  cases carries with
  | asking => exact absurd rfl aside
  | older busy older =>
    rw [← hp] at busy
    exact idleAfter_older busy (h.ne_of_older older)
  | _ => simp only [idleAfter, hp]

/-- Nothing has changed but the state and what the worker is busy with. -/
private theorem stay (h : s.Holds slot carried) (state : ReaderState) (phase : Phase)
    (carries : phase.Carries slot carried) :
    Aside slot carried carried s { s with reader := { s.reader with state, phase } } :=
  ⟨⟨h.reliable, h.slot_eq, h.generation_eq, carries⟩, rfl, rfl, rfl, id⟩

/-- What was buffered is fetched. -/
theorem fetch (h : s.Holds slot carried) : Aside slot carried carried s (s.next .fetch) := by
  by_cases on : s.reader.enabled = true
  · simp only [next, Reader.fetch, if_pos on]
    refine ⟨⟨h.reliable, h.slot_eq, h.generation_eq, h.carries⟩, rfl, rfl, ?_, id⟩
    simp only [delivered, List.append_nil]
  · simp only [next, Reader.fetch, if_neg on, List.append_nil]
    exact ⟨h, rfl, rfl, rfl, id⟩

/-- A phase in which the reader's cursor is not asked. -/
theorem work (h : s.Holds slot carried) (aside : s.reader.phase ≠ .asking slot) (now : Instant) :
    ∃ carried', Aside slot carried carried' s (s.next (.work now)) := by
  simp only [next, h.idleAfter_eq aside]
  cases active : s.reader.closed || !s.reader.enabled with
  | true =>
    simp only [Reader.step, active, if_true]
    exact ⟨carried, h, rfl, rfl, rfl, id⟩
  | false =>
    have carries := h.carries
    generalize hp : s.reader.phase = phase at carries aside
    cases carries with
    | ready =>
      simp only [Reader.step, active, hp, h.slot_eq, Bool.false_eq_true, if_false]
      exact ⟨[], ⟨h.reliable, rfl, h.generation_eq, .holding⟩, rfl, rfl, rfl, id⟩
    | holding =>
      simp only [Reader.step, active, hp, Bool.false_eq_true, if_false]
      cases s.reader.isFull with
      | true => exact ⟨[], h.stay _ _ .ready⟩
      | false => exact ⟨[], h.stay _ _ .asking⟩
    | asking => exact absurd rfl aside
    | arrived d =>
      simp only [Reader.step, active, hp, Bool.false_eq_true, if_false, Reader.mark,
        if_pos h.generation_eq.symm]
      exact ⟨_, h.stay _ _ (.keeping d)⟩
    | keeping d =>
      simp only [Reader.step, active, hp, Bool.false_eq_true, if_false]
      cases ha : Reader.admitted? slot.checkpoint d with
      | none =>
        exact ⟨[], ⟨h.reliable, h.slot_eq, h.generation_eq, .ready⟩, rfl, rfl, rfl, fun _ => rfl⟩
      | some record =>
        simp only [Reader.push, if_pos h.generation_eq.symm]
        refine ⟨[], ⟨h.reliable, h.slot_eq, h.generation_eq, .ready⟩, rfl, rfl, ?_, fun _ => rfl⟩
        rw [List.append_nil, delivered, delivered, List.append_assoc]
        rfl
    | exhausted =>
      simp only [Reader.step, active, hp, Bool.false_eq_true, if_false, Reader.mark,
        if_pos h.generation_eq.symm]
      exact ⟨[], h.stay _ _ .ready⟩
    | older busy older =>
      rw [← hp] at busy
      have dated (other : Slot) (hs : s.reader.slot = some other) :
          other.generation = s.reader.generation := by
        rw [h.slot_eq] at hs
        cases hs
        exact h.generation_eq
      obtain ⟨phase, stepped, outcome⟩ :=
        Reader.step_older h.reliable busy (h.ne_of_older older) dated now
      simp only [stepped]
      rcases outcome with rfl | busy'
      · exact ⟨[], h.stay _ _ .ready⟩
      · exact ⟨[], h.stay _ _ (.older busy' older)⟩

end Holds

/-- The cursor of the reader's slot was asked: the worker is busy with its answer then. -/
def answered (slot : Slot) (answer : Except StoreError (Option Document) × Cursor) (s : Session) :
    Session :=
  let slot := { slot with cursor := answer.2 }
  { s with
    reader := { s.reader with
      slot := some slot
      phase := match answer.1 with
        | .ok (some d) => .arrived slot d
        | .ok none => .exhausted slot
        | .error _ => .broken slot }
    idle := match answer.1 with
      | .ok none => true
      | _ => false }

theorem Holds.next_asking {slot : Slot} {carried : List Record} {s : Session}
    (h : s.Holds slot carried) (active : (s.reader.closed || !s.reader.enabled) = false)
    (hp : s.reader.phase = .asking slot) (now : Instant) :
    s.next (.work now) = s.answered slot (slot.cursor.tryNext s.link.store) := by
  have kept (cursor : Cursor) : s.reader.keepCursor { slot with cursor } =
      { s.reader with slot := some { slot with cursor } } := by
    simp only [Reader.keepCursor, h.slot_eq, if_true]
  simp only [next, idleAfter, Reader.step, active, hp, Bool.false_eq_true, if_false,
    h.reliable.tryNext_eq, kept, if_pos h.generation_eq, answered]
  rcases slot.cursor.tryNext s.link.store with ⟨_ | _ | d, cursor⟩ <;> rfl

/-! ## What holds throughout -/

/-- What holds throughout a session at a checkpoint. -/
structure Inv (c : Checkpoint) (slot : Slot) (seen : List Document) (carried : List Record)
    (s : Session) : Prop where
  reliable : s.link.Reliable
  slot_eq : s.reader.slot = some slot
  generation_eq : slot.generation = s.reader.generation
  checkpoint_eq : slot.checkpoint = c
  source_eq : slot.cursor.source = c.time
  follows : slot.cursor.Follows s.link.store seen
  carries : s.reader.phase.Carries slot carried
  delivered_eq : s.delivered ++ carried = c.records seen
  idle_eq : s.idle = true → s.link.store.documents = .ok seen ∧ carried = []

/-- What holds throughout a session, whatever was seen. -/
def Sound (c : Checkpoint) (s : Session) : Prop := ∃ slot seen carried, s.Inv c slot seen carried

/-- A session starts sound after a move. -/
theorem sound_start {r r' : Reader} {link link' : Link} {time : Option Instant} {now : Instant}
    {c : Checkpoint} (reached : r.Reached) (on : r.enabled = true) (reliable : link.Reliable)
    (moved : r.moveTo time now link = (.ok c, r', link')) : (start r' link').Sound c := by
  obtain ⟨cursor, opened, rfl⟩ := Reader.exists_openCursor on moved
  obtain ⟨skipped, follows, source, before⟩ :=
    Cursor.follows_tailFrom (Reader.tailFrom_of_openCursor opened)
  have reliable' := reliable.openCursor c
  rw [opened] at reliable'
  have holds := Holds.start reached reliable' c cursor
  refine ⟨_, skipped, [], reliable', rfl, rfl, rfl, source, follows, holds.carries, ?_, nofun⟩
  rw [Checkpoint.records_eq_nil before]
  rfl

namespace Inv

variable {c : Checkpoint} {slot : Slot} {seen : List Document} {carried : List Record} {s : Session}

/-- An insertion that removes nothing leaves a session sound. -/
theorem insert (h : s.Inv c slot seen carried) {d : Document} (keeps : s.link.store.Keeps d) :
    (s.next (.insert d)).Sound c := by
  have reliable := h.reliable.insert d
  have follows := h.follows.insert keeps
  simp only [next]
  rw [h.reliable.insert_eq] at reliable ⊢
  cases result : (s.link.store.insert d).1 with
  | ok =>
    exact ⟨slot, seen, carried, reliable, h.slot_eq, h.generation_eq, h.checkpoint_eq, h.source_eq,
      follows, h.carries, h.delivered_eq, nofun⟩
  | error e =>
    have same : (s.link.store.insert d).2 = s.link.store := Store.insert_error keeps result
    refine ⟨slot, seen, carried, reliable, h.slot_eq, h.generation_eq, h.checkpoint_eq,
      h.source_eq, follows, h.carries, h.delivered_eq, ?_⟩
    simp only [same]
    exact h.idle_eq

theorem holds (h : s.Inv c slot seen carried) : s.Holds slot carried :=
  ⟨h.reliable, h.slot_eq, h.generation_eq, h.carries⟩

/-- An action in which nothing is stored and the cursor of the slot is not asked. -/
private theorem aside (h : s.Inv c slot seen carried) {carried' : List Record} {s' : Session}
    (kept : Aside slot carried carried' s s') : s'.Sound c := by
  have holds := kept.holds
  refine ⟨slot, seen, carried', holds.reliable, holds.slot_eq, holds.generation_eq,
    h.checkpoint_eq, h.source_eq, ?_, holds.carries, kept.delivered_eq.trans h.delivered_eq, ?_⟩
  · rw [kept.link_eq]
    exact h.follows
  · rw [kept.link_eq, kept.idle_eq]
    intro idle
    exact ⟨(h.idle_eq idle).1, kept.nothing (h.idle_eq idle).2⟩

/-- Fetching leaves a session sound. -/
theorem fetch (h : s.Inv c slot seen carried) : (s.next .fetch).Sound c := h.aside h.holds.fetch

/-- Asking the cursor of the slot. -/
private theorem ask (h : s.Inv c slot seen []) :
    (s.answered slot (slot.cursor.tryNext s.link.store)).Sound c := by
  have asked := h.follows.asked
  have delivered := h.delivered_eq
  rw [List.append_nil] at delivered
  generalize slot.cursor.tryNext s.link.store = answer at asked ⊢
  cases asked with
  | nothing source follows skipped all =>
    rename_i passed cursor
    refine ⟨{ slot with cursor }, _, [], h.reliable, rfl, h.generation_eq, h.checkpoint_eq, ?_,
      follows, .exhausted, ?_, fun _ => ⟨all, rfl⟩⟩
    · exact source.trans h.source_eq
    · rw [h.source_eq] at skipped
      rw [Checkpoint.records_skipped skipped, List.append_nil]
      exact delivered
  | found source follows skipped matching =>
    rename_i passed d cursor
    refine ⟨{ slot with cursor }, _, _, h.reliable, rfl, h.generation_eq, h.checkpoint_eq, ?_,
      follows, .arrived d, ?_, ?_⟩
    · exact source.trans h.source_eq
    · rw [h.source_eq] at skipped matching
      rw [Checkpoint.records_found skipped matching, ← delivered, ← h.checkpoint_eq]
      rfl
    · intro idle
      cases idle

/-- A phase of the worker leaves a session sound. -/
theorem work (h : s.Inv c slot seen carried) (now : Instant) : (s.next (.work now)).Sound c := by
  by_cases asking : s.reader.phase = .asking slot
  · cases active : s.reader.closed || !s.reader.enabled with
    | true =>
      simp only [next, Reader.step, active, if_true]
      refine ⟨slot, seen, carried, h.reliable, h.slot_eq, h.generation_eq, h.checkpoint_eq,
        h.source_eq, h.follows, h.carries, h.delivered_eq, ?_⟩
      intro idle
      exact h.idle_eq (idleAfter_self idle)
    | false =>
      have nothing := h.holds.carried_eq_nil asking
      subst nothing
      rw [h.holds.next_asking active asking]
      exact h.ask
  · obtain ⟨carried', kept⟩ := h.holds.work asking now
    exact h.aside kept

end Inv

/-- Every action leaves a session sound. -/
theorem Sound.next {c : Checkpoint} {s : Session} {action : Action} {rest : List Action}
    (h : s.Sound c) (keeping : s.Keeping (action :: rest)) :
    (s.next action).Sound c ∧ (s.next action).Keeping rest := by
  obtain ⟨slot, seen, carried, inv⟩ := h
  cases action with
  | insert d => exact ⟨inv.insert keeping.1, keeping.2⟩
  | work now => exact ⟨inv.work now, keeping⟩
  | fetch => exact ⟨inv.fetch, keeping⟩

/-- Any number of actions leave a session sound. -/
theorem Sound.run {c : Checkpoint} {s : Session} {actions : List Action} (h : s.Sound c)
    (keeping : s.Keeping actions) : (s.run actions).Sound c := by
  induction actions generalizing s with
  | nil => exact h
  | cons action rest ih =>
    obtain ⟨sound, keeping'⟩ := h.next keeping
    exact ih sound keeping'

/-- What a sound session has delivered are the first of the records to be delivered, and all of them
when it is idle. -/
theorem Sound.delivered {c : Checkpoint} {s : Session} (h : s.Sound c) :
    ∃ docs, s.link.store.documents = .ok docs ∧ s.delivered <+: c.records docs ∧
      (s.idle = true → s.delivered = c.records docs) := by
  obtain ⟨slot, seen, carried, inv⟩ := h
  obtain ⟨ahead, documents⟩ := inv.follows.documents
  refine ⟨seen ++ ahead, documents, ?_, ?_⟩
  · rw [Checkpoint.records_append, ← inv.delivered_eq, List.append_assoc]
    exact List.prefix_append _ _
  · intro idle
    obtain ⟨all, rfl⟩ := inv.idle_eq idle
    rw [documents] at all
    rw [Except.ok.inj all, ← inv.delivered_eq, List.append_nil]

end Session

/-- After a move to a checkpoint, whatever is inserted, however the worker goes on and whenever
buffered records are fetched: as long as no call fails and nothing is removed from the store, the
fetched records and then the buffered ones are the first of the records that the store holds from
the checkpoint on, in its order; they are all of them whenever the cursor found nothing when it was
last asked and nothing was inserted since. -/
theorem Reader.delivers_in_order {r r' : Reader} {link link' : Link} {time : Option Instant}
    {now : Instant} {c : Checkpoint} {actions : List Session.Action} (reached : r.Reached)
    (on : r.enabled = true) (reliable : link.Reliable)
    (moved : r.moveTo time now link = (.ok c, r', link'))
    (keeping : (Session.start r' link').Keeping actions) :
    ∃ docs, ((Session.start r' link').run actions).link.store.documents = .ok docs ∧
      ((Session.start r' link').run actions).delivered <+: c.records docs ∧
      (((Session.start r' link').run actions).idle = true →
        ((Session.start r' link').run actions).delivered = c.records docs) :=
  ((Session.sound_start reached on reliable moved).run keeping).delivered

/-- The move stores a sentinel, and there is room for one record in the buffer. -/
theorem Reader.delivers_in_order_after_sentinel :
    let t : Instant := ⟨0, 0, by decide, by decide, by decide, by decide⟩
    let d : Document := .ofRecord (.atTime t "shop" "Orders" "placed" [])
    let moved := (Reader.create 1 true).moveTo (some t) t (.reliable (.memory (.bounded 4)))
    let actions : List Session.Action := [.insert d, .work t, .work t, .work t, .work t, .work t,
      .work t, .work t, .work t, .work t, .insert d, .work t, .fetch, .insert ⟨t, 7, .null⟩,
      .work t]
    (Session.start moved.2.1 moved.2.2).Keeping actions ∧
      ∃ docs, ((Session.start moved.2.1 moved.2.2).run actions).link.store.documents = .ok docs ∧
        ((Session.start moved.2.1 moved.2.2).run actions).delivered <+:
          Checkpoint.records (.atTime t) docs ∧
        (((Session.start moved.2.1 moved.2.2).run actions).idle = true →
          ((Session.start moved.2.1 moved.2.2).run actions).delivered =
            Checkpoint.records (.atTime t) docs) := by
  intro t d moved actions
  have answer : moved.1 = .ok (.atTime t) := by decide +kernel
  have split : (Reader.create 1 true).moveTo (some t) t (.reliable (.memory (.bounded 4))) =
      (.ok (.atTime t), moved.2.1, moved.2.2) := by
    rw [← answer]
  have keeping : (Session.start moved.2.1 moved.2.2).Keeping actions := by decide +kernel
  exact ⟨keeping, Reader.delivers_in_order (.create 1 true) rfl (Link.reliable_reliable _) split
    keeping⟩

end TraceJournal
