import Mathlib.Data.List.Perm.Subperm
import TraceJournal.Proofs.Journal.Generation

/-!
# The course of a reader

A reader and its link over any length of time: documents are inserted, calls begin to fail and stop
failing, the reader is moved, its worker goes through its phases, and buffered records are fetched.
Nothing is fetched that did not come through the buffer, and nothing comes into the buffer but from
the cursor of the slot that the worker is busy with.
-/

namespace TraceJournal

open scoped List

/-- A reader with its link. -/
structure Course where
  reader : Reader
  link : Link

namespace Course

/-- What happens in a course. -/
inductive Action where
  /-- Somebody inserts a document. -/
  | insert (d : Document)
  /-- From now on other calls fail than before. -/
  | disturb (failures : Call → Nat) (poison : Document → Bool)
  /-- The reader is moved; `now` is the present then. -/
  | move (time : Option Instant) (now : Instant)
  /-- The worker goes through one phase. -/
  | work (now : Instant)
  /-- Buffered records are fetched. -/
  | fetch (before : Option Instant)
  | close

/-- The course after an action. -/
def next (s : Course) : Action → Course
  | .insert d => { s with link := (s.link.insert d).2 }
  | .disturb failures poison => { s with link := { s.link with failures, poison } }
  | .move time now =>
    let (_, reader, link) := s.reader.moveTo time now s.link
    ⟨reader, link⟩
  | .work now =>
    let (reader, link) := s.reader.step now s.link
    ⟨reader, link⟩
  | .fetch before => { s with reader := (s.reader.fetch before).2 }
  | .close => { s with reader := s.reader.close }

/-- The course after some actions. -/
def run (s : Course) (actions : List Action) : Course := actions.foldl next s

@[simp] theorem run_nil (s : Course) : s.run [] = s := rfl

@[simp] theorem run_cons (s : Course) (action : Action) (rest : List Action) :
    s.run (action :: rest) = (s.next action).run rest := rfl

/-- What comes of all actions of a course, one after the other, when `out` is what comes of one. -/
def collect {α : Type} (out : Course → Action → List α) (s : Course) : List Action → List α
  | [] => []
  | action :: rest => out s action ++ (s.next action).collect out rest

/-- The records that an action fetches. -/
def fetchedBy (s : Course) : Action → List Record
  | .fetch before => (s.reader.fetch before).1
  | _ => []

/-- The records that an action puts into the buffer, with the generation of the slot that the worker
is busy with then, by whose cursor they were found. -/
def pushedBy (s : Course) : Action → List (Nat × Record)
  | .work now =>
    match s.reader.phase.slot? with
    | some slot =>
      ((s.reader.step now s.link).1.buffer.drop s.reader.buffer.length).map (slot.generation, ·)
    | none => []
  | _ => []

/-- All that is fetched, in order. -/
def fetched (s : Course) (actions : List Action) : List Record := s.collect fetchedBy actions

/-- All that comes into the buffer, in order. -/
def pushed (s : Course) (actions : List Action) : List (Nat × Record) := s.collect pushedBy actions

theorem reached_next {s : Course} (h : s.reader.Reached) (action : Action) :
    (s.next action).reader.Reached := by
  cases action with
  | insert d => exact h
  | disturb failures poison => exact h
  | move time now => exact h.moveTo time now s.link
  | work now => exact h.step now s.link
  | fetch before => exact h.fetch before
  | close => exact h.close

theorem reached_run {s : Course} (h : s.reader.Reached) (actions : List Action) :
    (s.run actions).reader.Reached := by
  induction actions generalizing s with
  | nil => exact h
  | cons action rest ih => exact ih (reached_next h action)

end Course

/-! ## Nothing is fetched that was not put into the buffer -/

namespace Reader

/-- What is fetched and what stays in the buffer are together what was in it. -/
theorem fetch_perm (before : Option Instant) (r : Reader) :
    ((r.fetch before).1 ++ (r.fetch before).2.buffer).Perm r.buffer := by
  unfold fetch
  split
  · split
    · rw [List.append_nil]
    · simp only [List.partition_eq_filter_filter]
      exact List.filter_append_perm _ _
  · exact .refl _

/-- Fetching changes nothing but the buffer. -/
theorem exists_fetch (before : Option Instant) (r : Reader) :
    ∃ buffer, (r.fetch before).2 = { r with buffer } := by
  unfold fetch
  split
  · split
    · exact ⟨_, rfl⟩
    · exact ⟨_, rfl⟩
  · exact ⟨r.buffer, rfl⟩

/-- A move leaves the buffer as it is, or empties it. -/
theorem buffer_moveTo (time : Option Instant) (now : Instant) (r : Reader) (link : Link) :
    (r.moveTo time now link).2.1.buffer <+ r.buffer := by
  rcases reader_moveTo time now r link with same | ⟨cursor, moved⟩
  · rw [same]
  · rw [moved]
    exact List.nil_sublist _

theorem buffer_keepCursor (slot : Slot) (r : Reader) : (r.keepCursor slot).buffer = r.buffer := by
  obtain ⟨slot', kept⟩ := r.exists_keepCursor slot
  rw [kept]

theorem buffer_mark (generation : Nat) (state : ReaderState) (r : Reader) :
    (r.mark generation state).buffer = r.buffer := by
  obtain ⟨state', marked⟩ := r.exists_mark generation state
  rw [marked]

/-- A phase of the worker puts a record into the buffer only while a document is kept. -/
theorem buffer_step (now : Instant) (r : Reader) (link : Link) :
    (r.step now link).1.buffer <+ r.buffer ∨
      ∃ slot d record, r.phase = .keeping slot d ∧
        (r.step now link).1.buffer = r.buffer ++ [record] := by
  have stepped := r.stepped now link
  generalize r.step now link = answer at stepped ⊢
  cases stepped with
  | finds | findsNothing | fails =>
    left
    simp only [buffer_keepCursor]
    exact List.Sublist.refl _
  | notes | rests | gives =>
    left
    simp only [buffer_mark]
    exact List.Sublist.refl _
  | @keeps slot d record hp =>
    simp only [push]
    split
    · exact .inr ⟨slot, d, record, hp, rfl⟩
    · exact .inl (List.Sublist.refl _)
  | resyncs => exact .inl (List.nil_sublist _)
  | _ => exact .inl (List.Sublist.refl _)

end Reader

namespace Course

theorem conserved_next (s : Course) (action : Action) :
    s.fetchedBy action ++ (s.next action).reader.buffer <+~
      s.reader.buffer ++ (s.pushedBy action).map (·.2) := by
  cases action with
  | insert d | disturb failures poison | close =>
    exact (List.sublist_append_left _ _).subperm
  | move time now =>
    exact ((Reader.buffer_moveTo time now s.reader s.link).trans
      (List.sublist_append_left _ _)).subperm
  | fetch before =>
    exact ((s.reader.fetch_perm before).trans (.of_eq (List.append_nil _).symm)).subperm
  | work now =>
    rcases s.reader.buffer_step now s.link with less | ⟨slot, d, record, keeping, more⟩
    · exact (less.trans (List.sublist_append_left _ _)).subperm
    · have all : (s.next (.work now)).reader.buffer = s.reader.buffer ++ [record] := more
      rw [all]
      simp only [fetchedBy, pushedBy, keeping, Phase.slot?, more, List.drop_left]
      exact .refl _

/-- What comes into the buffer was found by the cursor of the slot that the worker keeps it for. -/
theorem keeping_of_mem_pushedBy {s : Course} {action : Action} {p : Nat × Record}
    (h : p ∈ s.pushedBy action) :
    ∃ slot d, s.reader.phase = .keeping slot d ∧ p.1 = slot.generation := by
  cases action with
  | work now =>
    simp only [pushedBy] at h
    rcases s.reader.buffer_step now s.link with less | ⟨slot, d, record, keeping, more⟩
    · rw [List.drop_eq_nil_of_le less.length_le] at h
      split at h <;> cases h
    · simp only [keeping, Phase.slot?, List.mem_map] at h
      obtain ⟨record', -, rfl⟩ := h
      exact ⟨slot, d, keeping, rfl⟩
  | _ => cases h

/-- All that is fetched, and what is in the buffer at last, was in the buffer before or came into it
since. -/
theorem conserved (s : Course) (actions : List Action) :
    s.fetched actions ++ (s.run actions).reader.buffer <+~
      s.reader.buffer ++ (s.pushed actions).map (·.2) := by
  induction actions generalizing s with
  | nil =>
    simp only [fetched, pushed, collect, run_nil, List.map_nil, List.append_nil, List.nil_append]
    exact .refl _
  | cons action rest ih =>
    have first := s.conserved_next action
    have later := ih (s.next action)
    simp only [fetched, pushed, collect, run_cons, List.map_append, List.append_assoc] at later ⊢
    refine ((List.subperm_append_left (s.fetchedBy action)).mpr later).trans ?_
    rw [← List.append_assoc, ← List.append_assoc]
    exact (List.subperm_append_right _).mpr first

end Course

end TraceJournal
