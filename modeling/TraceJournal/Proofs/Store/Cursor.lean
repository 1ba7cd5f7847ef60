import TraceJournal.Proofs.Segment.Place
import TraceJournal.Proofs.Segment.Reading
import TraceJournal.Store.Basic

/-!
# Cursors that follow a store

A cursor follows a store when all documents of the store in front of the cursor's place are known to
have been passed over. Asking it never fails then: it passes over documents before its time, up to
one that is not or up to the end of the store. As long as nothing is removed from the store, what is
inserted only comes to stand behind the place.
-/

namespace TraceJournal

/-- Of documents that are all before a time none is from it on. -/
theorem Document.filter_eq_nil_of_before {source : Instant} {docs : List Document}
    (before : ∀ d ∈ docs, ¬source ≤ d.time) : (docs.filter fun d => source ≤ d.time) = [] := by
  apply List.filter_eq_nil_iff.mpr
  intro d hd
  simpa using before d hd

/-- What holds of all elements of a list still does when one of them is changed to one of which it
holds. -/
theorem forall_mem_modify {α : Type} {P : α → Prop} {f : α → α} {l : List α} (h : ∀ a ∈ l, P a)
    (kept : ∀ a, P a → P (f a)) (number : Nat) : ∀ a ∈ l.modify number f, P a := by
  intro a member
  obtain ⟨i, inside, rfl⟩ := List.getElem_of_mem member
  have there := h _ (List.getElem_mem (List.length_modify f l number ▸ inside))
  rw [List.getElem_modify]
  split
  · exact kept _ there
  · exact there

namespace Store

/-- Inserting the document removes nothing: a store in memory has room for one more, and a segment
store refuses it or is not cut. -/
def Keeps (d : Document) : Store → Prop
  | memory s => s.excess (s.documents.length + 1) = 0
  | segment s _ =>
    Frame.payloadLimit < (Frame.payload d).length ∨ s.size + (Frame.encode d).length ≤ s.maxSize

instance (d : Document) : (store : Store) → Decidable (store.Keeps d)
  | memory _ => inferInstanceAs (Decidable (_ = 0))
  | segment _ _ => inferInstanceAs (Decidable (_ ∨ _))

theorem insert_segment (d : Document) (s : Segment) (disk : Disk) :
    (segment s disk).insert d =
      ((s.insert d disk).1, segment (s.insert d disk).2.1 (s.insert d disk).2.2) := by
  simp only [insert]

/-- As long as nothing would be removed, a segment store refuses a document or appends it. -/
theorem insert_of_keeps {s : Segment} {disk : Disk} {d : Document}
    (keeps : (segment s disk).Keeps d) :
    s.insert d disk = (.error (.serialization Segment.tooLargeText), s, disk) ∨
      s.insert d disk = (.ok (), s.append (Frame.encode d) disk) := by
  by_cases fits : d.Fits
  · right
    apply Segment.insert_of_room disk fits
    rcases keeps with long | room
    · exact absurd fits (Nat.not_le_of_lt long)
    · exact room
  · left
    exact Segment.insert_of_not_fits s disk fits

/-- As long as nothing would be removed, an insertion that fails changes nothing. -/
theorem insert_error {d : Document} {store : Store} {e : StoreError} (keeps : store.Keeps d)
    (failed : (store.insert d).1 = .error e) : (store.insert d).2 = store := by
  cases store with
  | memory s => cases failed
  | segment s disk =>
    rw [insert_segment] at failed ⊢
    rcases insert_of_keeps keeps with refused | appended
    · rw [refused]
    · rw [appended] at failed
      cases failed

end Store

/-! ## In memory -/

/-- The cursor's place is in the store, and `seen` is what stands in front of it. -/
structure MemoryCursor.Follows (c : MemoryCursor) (s : MemoryStore) (seen : List Document) :
    Prop where
  first_le : s.first ≤ c.next
  next_le : c.next ≤ s.first + s.documents.length
  seen_eq : seen = s.documents.take (c.next - s.first)

namespace MemoryCursor

variable {c : MemoryCursor} {s : MemoryStore} {seen : List Document}

theorem Follows.documents (h : c.Follows s seen) :
    s.documents = seen ++ s.documents.drop (c.next - s.first) := by
  rw [h.seen_eq, List.take_append_drop]

/-- A cursor further ahead follows, and has seen what was passed over. -/
theorem Follows.advance (h : c.Follows s seen) (n : Nat)
    (within : n ≤ (s.documents.drop (c.next - s.first)).length) :
    Follows { c with next := c.next + n } s
      (seen ++ (s.documents.drop (c.next - s.first)).take n) where
  first_le := Nat.le_trans h.first_le (Nat.le_add_right _ _)
  next_le := by
    have := h.first_le
    have := h.next_le
    simp only [List.length_drop] at within ⊢
    omega
  seen_eq := by
    have := h.first_le
    rw [h.seen_eq, ← List.take_add]
    congr 1
    simp only
    omega

/-- A document for which there is room comes to stand behind the cursor. -/
theorem Follows.insert (h : c.Follows s seen) {d : Document}
    (room : s.excess (s.documents.length + 1) = 0) : c.Follows (s.insert d) seen := by
  have documents : (s.insert d).documents = s.documents ++ [d] := by
    simp only [MemoryStore.insert, List.length_append, List.length_singleton, room, List.drop_zero]
  have first : (s.insert d).first = s.first := by
    simp only [MemoryStore.insert, List.length_append, List.length_singleton, room, Nat.add_zero]
  have hf := h.first_le
  have hn := h.next_le
  constructor
  · rw [first]
    exact hf
  · rw [first, documents, List.length_append]
    omega
  · rw [first, documents, List.take_append_of_le_length (by omega)]
    exact h.seen_eq

theorem follows_tailFrom {source : Instant} (h : s.tailFrom source = .ok c) :
    ∃ skipped, c.Follows s skipped ∧ c.source = source ∧ ∀ d ∈ skipped, ¬source ≤ d.time := by
  unfold MemoryStore.tailFrom at h
  split at h
  · next index found =>
    cases h
    obtain ⟨within, -, before⟩ := List.findIdx?_eq_some_iff_getElem.mp found
    refine ⟨s.documents.take index, ⟨?_, ?_, ?_⟩, rfl, ?_⟩
    · exact Nat.le_add_right _ _
    · simp only
      omega
    · simp only [Nat.add_sub_cancel_left]
    · intro d hd
      obtain ⟨i, hi, rfl⟩ := List.mem_take_iff_getElem.mp hd
      have := before i (by omega)
      simpa using this
  · cases h

end MemoryCursor

/-! ## In a file -/

/-- The path of the store leads to the file that the cursor reads, the store has not cut it since,
and reading from its start passes over the documents `seen` up to the cursor's place. -/
structure SegmentCursor.Follows (c : SegmentCursor) (s : Segment) (disk : Disk)
    (seen : List Document) : Prop where
  file_path : disk.volume.file s.path = .ok c.file
  uncut : disk.cutsOf c.number = c.opened
  shows : c.window.Shows (disk.volume.bytes c.file)
  passes : ∃ passed, Frame.Passes (disk.volume.bytes c.file) 0 passed c.offset ∧
    passed.map (·.2) = seen

namespace Volume

/-- Bytes put at the end of one file change every file, if at all, only at its end. -/
theorem exists_bytes_write_append (v : Volume) (number other : Nat) (more : List UInt8) :
    ∃ behind, (v.write number (v.bytes number ++ more)).bytes other = v.bytes other ++ behind := by
  by_cases same : number = other
  · subst same
    by_cases h : number < v.contents.length
    · exact ⟨more, v.bytes_write h _⟩
    · have same (bytes : List UInt8) : (v.write number bytes).contents = v.contents :=
        List.set_eq_of_length_le (by omega)
      refine ⟨[], ?_⟩
      simp only [List.append_nil, bytes, same]
  · exact ⟨[], by rw [bytes_write_of_ne v same, List.append_nil]⟩

end Volume

namespace SegmentCursor

variable {c : SegmentCursor} {s : Segment} {disk : Disk} {seen : List Document}

theorem Follows.documents (h : c.Follows s disk seen) :
    s.documents disk =
      .ok (seen ++ (Frame.scanAt (disk.volume.bytes c.file) c.offset).map (·.2)) := by
  obtain ⟨passed, passes, rfl⟩ := h.passes
  simp only [Segment.documents, Segment.scan, Volume.read, h.file_path]
  rw [← List.map_append, ← passes.scanAt_eq]
  rfl

/-- Of the store only the path counts. -/
theorem Follows.of_path (h : c.Follows s disk seen) {s' : Segment} (same : s'.path = s.path) :
    c.Follows s' disk seen :=
  ⟨same ▸ h.file_path, h.uncut, h.shows, h.passes⟩

/-- What any store puts at the end of its file comes to stand behind the cursor, if it comes to the
cursor's file at all. -/
theorem Follows.append (h : c.Follows s disk seen) (other : Segment) (more : List UInt8) :
    c.Follows s (other.append more disk).2 seen := by
  obtain ⟨behind, grown⟩ := disk.volume.exists_bytes_write_append other.file c.file more
  obtain ⟨passed, passes, seen_eq⟩ := h.passes
  constructor
  · exact (Volume.file_write _ _ _ _).trans h.file_path
  · exact h.uncut
  · simp only [Segment.append, grown]
    exact h.shows.append behind
  · refine ⟨passed, ?_, seen_eq⟩
    simp only [Segment.append, grown]
    exact passes.append behind

/-- A document that is appended, and does not lead to a cut, comes to stand behind the cursor. -/
theorem Follows.insert (h : c.Follows s disk seen) {d : Document}
    (keeps : (Store.segment s disk).Keeps d) :
    c.Follows (s.insert d disk).2.1 (s.insert d disk).2.2 seen := by
  rcases Store.insert_of_keeps keeps with refused | appended
  · rw [refused]
    exact h
  · rw [appended]
    exact (h.append s (Frame.encode d)).of_path rfl

theorem follows_tailFrom {source : Instant} (h : s.tailFrom source disk = .ok c) :
    c.Follows s disk [] ∧ c.source = source := by
  unfold Segment.tailFrom at h
  split at h
  · next file path =>
    cases h
    exact ⟨⟨path, rfl, List.nil_prefix, [], .stay, rfl⟩, rfl⟩
  · cases h

end SegmentCursor

/-! ## In any store -/

namespace Cursor

/-- The time before which documents are passed over. -/
def source : Cursor → Instant
  | memory c => c.source
  | segment c => c.source

/-- The cursor has passed over exactly the documents `seen` of the store. -/
def Follows (store : Store) (seen : List Document) : Cursor → Prop
  | memory c =>
    match store with
    | .memory s => c.Follows s seen
    | .segment _ _ => False
  | segment c =>
    match store with
    | .segment s disk => c.Follows s disk seen
    | .memory _ => False

/-- What asking a cursor that has seen some documents comes to: it skips documents before its time,
until nothing is left or until it finds one that is not. -/
inductive Asked (store : Store) (seen : List Document) (source : Instant) :
    Except StoreError (Option Document) × Cursor → Prop where
  | nothing {skipped : List Document} {c : Cursor} :
    c.source = source → c.Follows store (seen ++ skipped) →
      (∀ d ∈ skipped, ¬source ≤ d.time) → store.documents = .ok (seen ++ skipped) →
      Asked store seen source (.ok none, c)
  | found {skipped : List Document} {d : Document} {c : Cursor} :
    c.source = source → c.Follows store (seen ++ skipped ++ [d]) →
      (∀ d ∈ skipped, ¬source ≤ d.time) → source ≤ d.time →
      Asked store seen source (.ok (some d), c)

namespace Follows

variable {c : Cursor} {store : Store} {seen : List Document}

/-- What was seen comes first in the store. -/
theorem documents (h : c.Follows store seen) :
    ∃ ahead, store.documents = .ok (seen ++ ahead) := by
  cases c with
  | memory c =>
    cases store with
    | memory s => exact ⟨_, congrArg Except.ok (MemoryCursor.Follows.documents h)⟩
    | segment s disk => cases h
  | segment c =>
    cases store with
    | memory s => cases h
    | segment s disk => exact ⟨_, SegmentCursor.Follows.documents h⟩

/-- As long as nothing is removed, inserting changes nothing of what was seen. -/
theorem insert (h : c.Follows store seen) {d : Document} (keeps : store.Keeps d) :
    c.Follows (store.insert d).2 seen := by
  cases c with
  | memory c =>
    cases store with
    | memory s =>
      have follows : c.Follows s seen := h
      have room : s.excess (s.documents.length + 1) = 0 := keeps
      exact follows.insert room
    | segment s disk => cases h
  | segment c =>
    cases store with
    | memory s => cases h
    | segment s disk =>
      have follows : c.Follows s disk seen := h
      rw [Store.insert_segment]
      exact follows.insert keeps

private theorem asked_memory {c : MemoryCursor} {s : MemoryStore} (h : c.Follows s seen) :
    Asked (.memory s) seen c.source ((Cursor.memory c).tryNext (.memory s)) := by
  simp only [Cursor.tryNext, MemoryCursor.tryNext]
  rw [if_neg (by have := h.first_le; omega)]
  have all := h.documents
  have advance := h.advance
  generalize s.documents.drop (c.next - s.first) = ahead at all advance ⊢
  cases hf : ahead.findIdx? fun d => c.source ≤ d.time with
  | none =>
    have before := List.findIdx?_eq_none_iff.mp hf
    have moved := advance ahead.length (Nat.le_refl _)
    rw [List.take_length] at moved
    refine .nothing rfl moved ?_ (congrArg Except.ok all)
    intro d hd
    simpa using before d hd
  | some index =>
    obtain ⟨within, matching, before⟩ := List.findIdx?_eq_some_iff_getElem.mp hf
    have moved := advance (index + 1) (by omega)
    rw [List.take_add_one, List.getElem?_eq_getElem within, ← List.append_assoc] at moved
    simp only [List.getElem?_eq_getElem within]
    refine .found rfl moved ?_ (by simpa using matching)
    intro d hd
    obtain ⟨i, hi, rfl⟩ := List.mem_take_iff_getElem.mp hd
    simpa using before i (by omega)

private theorem asked_segment {c : SegmentCursor} {s : Segment} {disk : Disk}
    (h : c.Follows s disk seen) :
    Asked (.segment s disk) seen c.source ((Cursor.segment c).tryNext (.segment s disk)) := by
  obtain ⟨passed, passes, rfl⟩ := h.passes
  have inside : c.offset ≤ (disk.volume.bytes c.file).length := passes.le_length (Nat.zero_le _)
  simp only [Cursor.tryNext, SegmentCursor.tryNext_of_valid ⟨h.uncut, inside⟩]
  obtain ⟨w, next, skipped, shows, before, outcome⟩ :=
    SegmentCursor.readOn_passes ((disk.volume.bytes c.file).length + 1) c h.shows (by omega)
  have skip (d : Document) (hd : d ∈ skipped.map (·.2)) : ¬c.source ≤ d.time := by
    obtain ⟨p, hp, rfl⟩ := List.mem_map.mp hd
    exact before p hp
  rcases outcome with ⟨result, more, ends⟩ | ⟨place, d, result, more, matching⟩
  · have follows : SegmentCursor.Follows { c with window := w, offset := next } s disk
        (passed.map (·.2) ++ skipped.map (·.2)) :=
      ⟨h.file_path, h.uncut, shows, _, passes.trans more, List.map_append⟩
    have all := follows.documents
    rw [Frame.scanAt_of_incomplete ends, List.map_nil, List.append_nil] at all
    rw [result]
    exact .nothing rfl follows skip all
  · have follows : SegmentCursor.Follows { c with window := w, offset := next } s disk
        (passed.map (·.2) ++ skipped.map (·.2) ++ [d]) := by
      refine ⟨h.file_path, h.uncut, shows, _, passes.trans more, ?_⟩
      rw [List.map_append, List.map_append, List.map_singleton, List.append_assoc]
    rw [result]
    exact .found rfl follows skip matching

/-- Asking a cursor that follows its store never fails. -/
theorem asked (h : c.Follows store seen) : Asked store seen c.source (c.tryNext store) := by
  cases c with
  | memory c =>
    cases store with
    | memory s => exact asked_memory h
    | segment s disk => cases h
  | segment c =>
    cases store with
    | memory s => cases h
    | segment s disk => exact asked_segment h

end Follows

/-- A cursor that was just opened has at most passed over documents before its time. -/
theorem follows_tailFrom {store : Store} {source : Instant} {c : Cursor}
    (h : store.tailFrom source = .ok c) :
    ∃ skipped, c.Follows store skipped ∧ c.source = source ∧ ∀ d ∈ skipped, ¬source ≤ d.time := by
  cases store with
  | memory s =>
    cases hc : s.tailFrom source with
    | error e => simp only [Store.tailFrom, hc] at h; cases h
    | ok c' =>
      simp only [Store.tailFrom, hc] at h
      cases h
      exact MemoryCursor.follows_tailFrom hc
  | segment s disk =>
    cases hc : s.tailFrom source disk with
    | error e => simp only [Store.tailFrom, hc] at h; cases h
    | ok c' =>
      simp only [Store.tailFrom, hc] at h
      cases h
      obtain ⟨follows, from_source⟩ := SegmentCursor.follows_tailFrom hc
      exact ⟨[], follows, from_source, by simp⟩

/-- Asked again and again, a cursor finds some documents, one after the other, and then nothing. -/
inductive Yields (store : Store) : Cursor → List Document → Prop where
  | nothing {c c' : Cursor} : c.tryNext store = (.ok none, c') → Yields store c []
  | found {c c' : Cursor} {d : Document} {rest : List Document} :
    c.tryNext store = (.ok (some d), c') → Yields store c' rest → Yields store c (d :: rest)

/-- A cursor that follows its store yields what stands behind its place, but for the documents
before its time. -/
theorem Follows.yields {store : Store} {seen ahead : List Document} {c : Cursor}
    (h : c.Follows store seen) (all : store.documents = .ok (seen ++ ahead)) :
    c.Yields store (ahead.filter fun d => c.source ≤ d.time) := by
  induction n : ahead.length using Nat.strongRecOn generalizing c seen ahead with
  | ind n ih =>
    have asked := h.asked
    generalize answer : c.tryNext store = result at asked
    cases asked with
    | nothing source follows skipped end_ =>
      rename_i passed c'
      rw [all] at end_
      rw [List.append_cancel_left (Except.ok.inj end_), Document.filter_eq_nil_of_before skipped]
      exact .nothing answer
    | found source follows skipped matching =>
      rename_i passed d c'
      obtain ⟨behind, rest⟩ := follows.documents
      rw [all, List.append_assoc, List.append_assoc] at rest
      have split := List.append_cancel_left (Except.ok.inj rest)
      have none := Document.filter_eq_nil_of_before skipped
      have first : ([d].filter fun d => c.source ≤ d.time) = [d] := by simp [matching]
      rw [split, List.filter_append, List.filter_append, none, first, List.nil_append,
        List.singleton_append, ← source]
      apply Yields.found answer
      refine ih behind.length ?_ follows ?_ rfl
      · rw [← n, split, List.length_append, List.length_append, List.length_singleton]
        omega
      · rw [all, split, List.append_assoc, List.append_assoc]

end Cursor

end TraceJournal
