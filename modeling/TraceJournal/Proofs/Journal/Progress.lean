import TraceJournal.Proofs.Journal.Delivery
import TraceJournal.Proofs.Store.Retained

/-!
# A reader comes to rest

As long as somebody fetches what is buffered, a reader works through all documents that stand ahead
of its cursor: each phase of the worker brings it nearer to asking the cursor again, and each answer
leaves one document less ahead of it, until there is none.
-/

namespace TraceJournal

/-! ## How far there is to go -/

namespace Cursor

/-- The documents of the store from the cursor's place on. -/
def ahead (store : Store) : Cursor → List Document
  | memory c =>
    match store with
    | .memory s => s.documents.drop (c.next - s.first)
    | .segment _ _ => []
  | segment c =>
    match store with
    | .segment _ disk => (Frame.scanAt (disk.volume.bytes c.file) c.offset).map (·.2)
    | .memory _ => []

/-- A store holds what its cursor has seen and what is still ahead. -/
theorem Follows.documents_eq {c : Cursor} {store : Store} {seen : List Document}
    (h : c.Follows store seen) : store.documents = .ok (seen ++ c.ahead store) := by
  cases c with
  | memory c =>
    cases store with
    | memory s => exact congrArg Except.ok (MemoryCursor.Follows.documents h)
    | segment s disk => cases h
  | segment c =>
    cases store with
    | memory s => cases h
    | segment s disk => exact SegmentCursor.Follows.documents h

end Cursor

/-- More phases than the worker has to go through before it asks the cursor of a generation. -/
def Phase.rank (generation : Nat) : Phase → Nat
  | holding slot => if slot.generation = generation then 2 else 7
  | asking slot => if slot.generation = generation then 1 else 6
  | ready => 3
  | keeping _ _ | exhausted _ | waiting _ => 4
  | arrived _ _ | broken _ => 5

theorem Phase.rank_pos (phase : Phase) (generation : Nat) : 0 < phase.rank generation := by
  cases phase <;> simp only [rank] <;> (try split) <;> omega

theorem Phase.rank_le (phase : Phase) (generation : Nat) : phase.rank generation ≤ 7 := by
  cases phase <;> simp only [rank] <;> (try split) <;> omega

/-! ## A worker that is not stopped -/

namespace Reader

/-- The worker runs, and there can be room in the buffer. -/
structure Running (r : Reader) : Prop where
  enabled : r.enabled = true
  opened : r.closed = false
  roomy : 1 ≤ r.capacity

/-- A worker that finds room in the buffer is not held up. -/
theorem Running.of_room {r : Reader} (on : r.enabled = true) (opened : r.closed = false)
    (room : r.isFull = false) : r.Running := by
  refine ⟨on, opened, ?_⟩
  simp only [isFull, decide_eq_false_iff_not] at room
  omega

theorem Running.active {r : Reader} (h : r.Running) : (r.closed || !r.enabled) = false := by
  rw [h.opened, h.enabled]
  rfl

/-- A phase of the worker changes neither whether it runs nor how much is buffered at most. -/
theorem Running.step {r : Reader} (h : r.Running) (now : Instant) (link : Link) :
    (r.step now link).1.Running := by
  obtain ⟨enabled, closed, capacity⟩ := r.fixed_step now link
  exact ⟨enabled.trans h.enabled, closed.trans h.opened, h.roomy.trans_eq capacity.symm⟩

theorem Running.fetch {r : Reader} (h : r.Running) : (r.fetch none).2.Running := by
  unfold Reader.fetch
  split
  · exact ⟨h.enabled, h.opened, h.roomy⟩
  · exact h

/-- There is room once the buffer was fetched. -/
theorem Running.isFull_fetch {r : Reader} (h : r.Running) : (r.fetch none).2.isFull = false := by
  have := h.roomy
  rw [Reader.fetch, if_pos h.enabled]
  simp only [isFull, List.length_nil, decide_eq_false_iff_not]
  omega

/-- A worker that is busy with an older generation gets nearer to the present one. -/
theorem rank_step_older {r : Reader} {g : Nat} (h : r.Running) (room : r.isFull = false)
    (busy : r.phase.generation? = some g) (older : g ≠ r.generation) (now : Instant) (link : Link) :
    (r.step now link).1.phase.rank r.generation < r.phase.rank r.generation := by
  have stepped := r.stepped now link
  generalize r.step now link = answer at stepped ⊢
  cases stepped with
  | off off =>
    rw [h.active] at off
    cases off
  | unplaced hp | takes hp =>
    rw [hp] at busy
    cases busy
  | pauses _ full =>
    rw [room] at full
    cases full
  | turns hp | finds hp | findsNothing hp | fails hp | notes hp | gives hp =>
    rw [hp] at busy ⊢
    cases busy
    simp only [Phase.rank, if_neg older]
    omega
  | drops hp | keeps hp | rests hp | superseded hp =>
    rw [hp]
    exact Nat.lt_succ_self 3
  | stays hp | resyncs hp =>
    rw [hp] at busy
    cases busy
    exact absurd rfl older

end Reader

/-! ## Nearer to rest -/

namespace Session

/-- At least as many phases as the worker has to go through until it finds nothing more, when there
is always room in the buffer. -/
def owed (s : Session) : Nat :=
  if s.idle then 0
  else
    s.reader.slot.elim 0 fun slot =>
      8 * (slot.cursor.ahead s.link.store).length + s.reader.phase.rank slot.generation

/-- The cursor of the reader's slot follows the store. While the session is idle, it has seen all
documents, and the worker has no record in its hands. -/
structure Tracks (slot : Slot) (seen : List Document) (carried : List Record) (s : Session) : Prop
    extends s.Holds slot carried where
  follows : slot.cursor.Follows s.link.store seen
  idle_eq : s.idle = true → s.link.store.documents = .ok seen ∧ carried = []

theorem Inv.tracks {c : Checkpoint} {slot : Slot} {seen : List Document} {carried : List Record}
    {s : Session} (h : s.Inv c slot seen carried) : s.Tracks slot seen carried :=
  ⟨h.holds, h.follows, h.idle_eq⟩

namespace Holds

variable {slot : Slot} {carried : List Record} {s : Session}

theorem owed_eq (h : s.Holds slot carried) :
    s.owed = if s.idle then 0 else
      8 * (slot.cursor.ahead s.link.store).length + s.reader.phase.rank slot.generation := by
  rw [owed, h.slot_eq, Option.elim_some]

theorem idle_of_owed (h : s.Holds slot carried) (none_owed : s.owed = 0) : s.idle = true := by
  by_contra busy
  have := s.reader.phase.rank_pos slot.generation
  rw [h.owed_eq, if_neg busy] at none_owed
  omega

/-- The worker stores nothing, as its cursor does not fail. -/
theorem link_work (h : s.Holds slot carried) (now : Instant) :
    (s.next (.work now)).link = s.link := by
  by_cases asking : s.reader.phase = .asking slot
  · cases active : s.reader.closed || !s.reader.enabled with
    | true => simp only [next, Reader.step, active, if_true]
    | false =>
      rw [h.next_asking active asking]
      rfl
  · obtain ⟨_, kept⟩ := h.work asking now
    exact kept.link_eq

/-- A phase in which the reader's cursor is not asked brings the worker nearer to asking it. -/
theorem rank_work (h : s.Holds slot carried) (running : s.reader.Running)
    (room : s.reader.isFull = false) (aside : s.reader.phase ≠ .asking slot) (now : Instant) :
    (s.next (.work now)).reader.phase.rank slot.generation <
      s.reader.phase.rank slot.generation := by
  have active := running.active
  have carries := h.carries
  generalize hp : s.reader.phase = phase at carries aside
  cases carries with
  | ready => simp [next, Reader.step, active, hp, h.slot_eq, Phase.rank]
  | holding => simp [next, Reader.step, active, hp, room, Phase.rank]
  | asking => exact absurd rfl aside
  | arrived d => simp [next, Reader.step, active, hp, Phase.rank]
  | keeping d =>
    simp only [next, Reader.step, active, hp, Bool.false_eq_true, if_false]
    exact Nat.lt_succ_self 3
  | exhausted => simp [next, Reader.step, active, hp, Phase.rank]
  | older busy older =>
    rw [← hp, h.generation_eq] at *
    exact Reader.rank_step_older running room busy older now s.link

/-- Less is owed after a phase in which the reader's cursor is not asked. -/
theorem owed_work (h : s.Holds slot carried) (running : s.reader.Running)
    (room : s.reader.isFull = false) (aside : s.reader.phase ≠ .asking slot) (now : Instant) :
    (s.next (.work now)).owed ≤ s.owed - 1 := by
  obtain ⟨_, kept⟩ := h.work aside now
  have nearer := h.rank_work running room aside now
  rw [h.owed_eq, kept.holds.owed_eq, kept.idle_eq, kept.link_eq]
  split <;> omega

end Holds

namespace Tracks

variable {slot : Slot} {seen : List Document} {carried : List Record} {s : Session}

/-- A session that is idle has nothing ahead. -/
theorem ahead_of_idle (h : s.Tracks slot seen carried) (idle : s.idle = true) :
    slot.cursor.ahead s.link.store = [] := by
  have all := (h.idle_eq idle).1
  rw [h.follows.documents_eq] at all
  simpa using Except.ok.inj all

/-- Asking the reader's cursor finds nothing, or a document that is no longer ahead then. -/
private theorem owed_ask (h : s.Tracks slot seen carried) (running : s.reader.Running)
    (asking : s.reader.phase = .asking slot) (now : Instant) :
    (s.next (.work now)).owed ≤ s.owed - 1 := by
  have before := h.follows.documents_eq
  have asked := h.follows.asked
  have idle_ahead := h.ahead_of_idle
  rw [h.owed_eq, asking, h.next_asking running.active asking]
  generalize slot.cursor.tryNext s.link.store = answer at asked ⊢
  cases asked with
  | nothing => exact Nat.zero_le _
  | found _ follows =>
    rename_i skipped d cursor _ _
    have after := follows.documents_eq
    rw [before] at after
    have lengths := congrArg List.length (Except.ok.inj after)
    simp only [List.length_append, List.length_singleton] at lengths
    -- Nothing was ahead of an idle session, but here at least the document is that was found.
    have busy : s.idle ≠ true := by
      intro idle
      rw [idle_ahead idle] at lengths
      simp only [List.length_nil] at lengths
      omega
    simp only [owed, answered, Option.elim_some, Bool.false_eq_true, if_false, if_neg busy,
      Phase.rank, if_true]
    omega

/-- A phase brings the worker nearer to its rest. -/
theorem owed_work (h : s.Tracks slot seen carried) (running : s.reader.Running)
    (room : s.reader.isFull = false) (now : Instant) :
    (s.next (.work now)).owed ≤ s.owed - 1 := by
  by_cases asking : s.reader.phase = .asking slot
  · exact h.owed_ask running asking now
  · exact h.toHolds.owed_work running room asking now

end Tracks

/-- An insertion that removes nothing puts at most one document ahead. -/
theorem Inv.owed_insert {c : Checkpoint} {slot : Slot} {seen : List Document}
    {carried : List Record} {s : Session} (h : s.Inv c slot seen carried) {docs : List Document}
    {d : Document} (retains : s.link.store.Retains docs) (keeps : s.link.store.Keeps d) :
    (s.next (.insert d)).owed ≤ s.owed + 15 := by
  have follows := h.follows.insert keeps
  have before := h.follows.documents_eq
  have after := follows.documents_eq
  have grows : (slot.cursor.ahead (s.link.store.insert d).2).length ≤
      (slot.cursor.ahead s.link.store).length + 1 := by
    rw [retains.documents_eq] at before
    rcases retains.insert keeps with ⟨-, retains'⟩ | ⟨_, -, same⟩
    · rw [retains'.documents_eq] at after
      have one : ([d].filterMap (s.link.store.insert d).2.finds?).length ≤ 1 :=
        List.length_filterMap_le _ _
      have finds : (fun e => (s.link.store.insert d).2.finds? e) = fun e => s.link.store.finds? e :=
        funext fun e => s.link.store.finds?_insert e d
      have before := congrArg List.length (Except.ok.inj before)
      have after := congrArg List.length (Except.ok.inj after)
      rw [List.filterMap_append, finds] at after
      rw [finds] at one
      simp only [List.length_append] at before after
      omega
    · rw [same]
      omega
  -- From rest, one document ahead and whatever phase the worker is in make fifteen at most.
  have rank := s.reader.phase.rank_le slot.generation
  have idle_or : s.idle = true ∧ slot.cursor.ahead s.link.store = [] ∨ s.idle = false := by
    cases idle : s.idle with
    | true => exact .inl ⟨rfl, h.tracks.ahead_of_idle idle⟩
    | false => exact .inr rfl
  rw [h.holds.owed_eq]
  simp only [next, h.reliable.insert_eq]
  cases (s.link.store.insert d).1 with
  | ok =>
    simp only [owed, h.slot_eq, Option.elim_some, Bool.false_eq_true, if_false]
    rcases idle_or with ⟨idle, nothing⟩ | busy
    · rw [if_pos idle]
      rw [nothing] at grows
      simp only [List.length_nil] at grows
      omega
    · rw [if_neg (by simp [busy])]
      omega
  | error e =>
    simp only [owed, h.slot_eq, Option.elim_some]
    rcases idle_or with ⟨idle, nothing⟩ | busy
    · rw [if_pos idle]
      omega
    · rw [if_neg (by simp [busy]), if_neg (by simp [busy])]
      omega

theorem owed_fetch (s : Session) : (s.next .fetch).owed = s.owed := by
  by_cases on : s.reader.enabled = true
  · simp only [next, Reader.fetch, if_pos on, owed]
  · simp only [next, Reader.fetch, if_neg on, owed]

/-! ## Rounds -/

/-- The session after all that is buffered was fetched, and after a phase of the worker. -/
def round (s : Session) (now : Instant) : Session := (s.next .fetch).next (.work now)

namespace Sound

variable {c : Checkpoint} {s : Session}

theorem reliable (h : s.Sound c) : s.link.Reliable := by
  obtain ⟨slot, seen, carried, inv⟩ := h
  exact inv.reliable

theorem idle_of_owed (h : s.Sound c) (none_owed : s.owed = 0) : s.idle = true := by
  obtain ⟨slot, seen, carried, inv⟩ := h
  exact inv.holds.idle_of_owed none_owed

/-- A round leaves a session sound, and nearer to its rest. -/
theorem round (h : s.Sound c) (running : s.reader.Running) (now : Instant) :
    (s.round now).Sound c ∧ (s.round now).reader.Running ∧ (s.round now).owed ≤ s.owed - 1 := by
  obtain ⟨slot, seen, carried, inv⟩ := h
  obtain ⟨slot', seen', carried', fetched⟩ := inv.fetch
  have running' : (s.next .fetch).reader.Running := running.fetch
  have nearer := fetched.tracks.owed_work running' running.isFull_fetch now
  rw [owed_fetch] at nearer
  exact ⟨fetched.work now, running'.step now _, nearer⟩

/-- Whoever fetches often enough gets all records that the store holds from the checkpoint on. -/
theorem rounds (h : s.Sound c) (running : s.reader.Running) {times : List Instant}
    (enough : s.owed ≤ times.length) :
    (times.foldl Session.round s).Sound c ∧ (times.foldl Session.round s).idle = true := by
  induction times generalizing s with
  | nil => exact ⟨h, h.idle_of_owed (Nat.le_zero.mp enough)⟩
  | cons now rest ih =>
    obtain ⟨sound, still, nearer⟩ := h.round running now
    rw [List.length_cons] at enough
    exact ih sound still (by omega)

end Sound

end Session

end TraceJournal
