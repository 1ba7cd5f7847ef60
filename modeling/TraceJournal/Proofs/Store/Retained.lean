import TraceJournal.Proofs.Segment.Accepted
import TraceJournal.Proofs.Store.Log

/-!
# Stores that have removed nothing

As long as nothing is removed, a store has all documents that it ever accepted. A store in memory
finds each of them as it is; a segment store finds what they become when they are read from their
own text, which may be nothing.
-/

namespace TraceJournal

/-- Reading a document from its own text changes neither its time nor its serial number. -/
theorem Document.position_of_reread? {d d' : Document} (h : d.reread? = some d') :
    d'.position = d.position := by
  obtain ⟨body, -, rfl⟩ := Option.map_eq_some_iff.mp h
  rfl

/-! ## The highest serial number -/

/-- The larger one of two words is one that is not below either. -/
instance lawfulMaxSerial : Std.LawfulOrderMax UInt64 where
  max_le_iff a b c := by
    rw [show max a b = if a ≤ b then b else a from rfl]
    split
    · next h => exact ⟨fun above => ⟨Std.le_trans h above, above⟩, And.right⟩
    · next h => exact ⟨fun above => ⟨above, Std.le_trans (Std.le_of_not_ge h) above⟩, And.left⟩
  max_eq_or a b := by
    rw [show max a b = if a ≤ b then b else a from rfl]
    split
    · exact .inr rfl
    · exact .inl rfl

namespace Document

theorem highestSerial?_le_iff {docs : List Document} {n : UInt64} :
    (highestSerial? docs).getD 0 ≤ n ↔ ∀ d ∈ docs, d.serial ≤ n := by
  rw [highestSerial?]
  cases highest : (docs.map Document.serial).max? with
  | none =>
    rw [List.map_eq_nil_iff.mp (List.max?_eq_none_iff.mp highest)]
    simp
  | some m =>
    obtain ⟨member, above⟩ := List.max?_eq_some_iff.mp highest
    obtain ⟨d, listed, rfl⟩ := List.mem_map.mp member
    rw [Option.getD_some]
    constructor
    · intro le e other
      exact Std.le_trans (above _ (List.mem_map_of_mem other)) le
    · intro le
      exact le d listed

theorem le_of_highestSerial? {docs : List Document} {d : Document} (member : d ∈ docs) :
    d.serial ≤ (highestSerial? docs).getD 0 :=
  highestSerial?_le_iff.mp (Std.le_refl _) d member

theorem exists_mem_of_highestSerial? {docs : List Document} {n : UInt64}
    (h : highestSerial? docs = some n) : ∃ d ∈ docs, d.serial = n := by
  obtain ⟨member, -⟩ := List.max?_eq_some_iff.mp h
  exact List.mem_map.mp member

theorem exists_highestSerial? {docs : List Document} {d : Document} (member : d ∈ docs) :
    ∃ n, highestSerial? docs = some n ∧ d.serial ≤ n := by
  have le := le_of_highestSerial? member
  cases highest : highestSerial? docs with
  | none =>
    rw [List.map_eq_nil_iff.mp (List.max?_eq_none_iff.mp highest)] at member
    cases member
  | some n =>
    rw [highest] at le
    exact ⟨n, rfl, le⟩

/-- A document without a serial number does not change the highest one. -/
theorem highestSerial?_append_of_zero (docs : List Document) {d : Document} (zero : d.serial = 0) :
    (highestSerial? (docs ++ [d])).getD 0 = (highestSerial? docs).getD 0 := by
  apply UInt64.le_antisymm
  · rw [highestSerial?_le_iff]
    intro e member
    rcases List.mem_append.mp member with old | new
    · exact le_of_highestSerial? old
    · rw [List.mem_singleton.mp new, zero]
      exact UInt64.zero_le
  · rw [highestSerial?_le_iff]
    intro e old
    exact le_of_highestSerial? (List.mem_append_left _ old)

end Document

/-- A document for which there is room comes to stand at the end. -/
theorem MemoryStore.documents_insert {s : MemoryStore} {d : Document}
    (room : s.excess (s.documents.length + 1) = 0) :
    (s.insert d).documents = s.documents ++ [d] := by
  simp only [insert, List.length_append, List.length_singleton, room, List.drop_zero]

namespace Store

/-- What the store finds of a document that it has accepted. -/
def finds? (d : Document) : Store → Option Document
  | memory _ => some d
  | segment _ _ => d.reread?

/-- These are all documents that the store ever accepted, one after the other, and none has been
removed. -/
def Retains (docs : List Document) : Store → Prop
  | memory s => s.documents = docs
  | segment s disk =>
    s.Sole disk ∧ s.bytes disk = Frame.encodeAll docs ∧ ∀ d ∈ docs, d.Fits

variable {store : Store} {docs : List Document}

theorem finds?_insert (store : Store) (d e : Document) :
    (store.insert e).2.finds? d = store.finds? d := by
  cases store with
  | memory s => rfl
  | segment s disk => rw [insert_segment, finds?, finds?]

theorem position_of_finds? {d d' : Document} (h : store.finds? d = some d') :
    d'.position = d.position := by
  cases store with
  | memory s =>
    cases h
    rfl
  | segment s disk => exact Document.position_of_reread? h

namespace Retains

theorem sole (h : store.Retains docs) : store.Sole := by
  cases store with
  | memory s => trivial
  | segment s disk => exact h.1

theorem held_eq (h : store.Retains docs) : store.held = docs.filterMap store.finds? := by
  cases store with
  | memory s => exact h.trans List.filterMap_some.symm
  | segment s disk =>
    obtain ⟨-, bytes, fits⟩ := h
    exact (congrArg Frame.documents bytes).trans (Frame.documents_encodeAll_of_fits fits)

theorem documents_eq (h : store.Retains docs) :
    store.documents = .ok (docs.filterMap store.finds?) := by
  rw [h.sole.documents_eq, h.held_eq]

theorem lastSerial_eq (h : store.Retains docs) :
    store.lastSerial = .ok (Document.highestSerial? (docs.filterMap store.finds?)) := by
  rw [← h.held_eq]
  cases store with
  | memory s => rfl
  | segment s disk => exact h.1.inPlace.lastSerial_eq

/-- No document that is found has a higher serial number than the store tells. -/
theorem le_of_lastSerial (h : store.Retains docs) {highest : Option UInt64}
    (told : store.lastSerial = .ok highest) {d : Document} (member : d ∈ docs)
    (found : (store.finds? d).isSome) : d.serial ≤ highest.getD 0 := by
  obtain ⟨d', found⟩ := Option.isSome_iff_exists.mp found
  have same : d'.serial = d.serial := congrArg Position.serial (position_of_finds? found)
  rw [h.lastSerial_eq] at told
  rw [← Except.ok.inj told, ← same]
  exact Document.le_of_highestSerial? (List.mem_filterMap.mpr ⟨d, member, found⟩)

/-- A serial number that the store tells is that of a document. -/
theorem exists_of_lastSerial (h : store.Retains docs) {n : UInt64}
    (told : store.lastSerial = .ok (some n)) : ∃ d ∈ docs, d.serial = n := by
  rw [h.lastSerial_eq] at told
  obtain ⟨d', listed, rfl⟩ := Document.exists_mem_of_highestSerial? (Except.ok.inj told)
  obtain ⟨d, member, found⟩ := List.mem_filterMap.mp listed
  exact ⟨d, member, (congrArg Position.serial (position_of_finds? found)).symm⟩

/-- A document that does not push others out is accepted, or leaves the store as it is. -/
theorem insert (h : store.Retains docs) {d : Document} (keeps : store.Keeps d) :
    ((store.insert d).1 = .ok () ∧ (store.insert d).2.Retains (docs ++ [d])) ∨
      ∃ e, (store.insert d).1 = .error e ∧ (store.insert d).2 = store := by
  cases store with
  | memory s =>
    left
    refine ⟨rfl, ?_⟩
    have held : s.documents = docs := h
    have room : s.excess (s.documents.length + 1) = 0 := keeps
    show (s.insert d).documents = docs ++ [d]
    rw [MemoryStore.documents_insert room, held]
  | segment s disk =>
    obtain ⟨sole, bytes, fits⟩ := h
    by_cases fit : d.Fits
    · left
      have room : s.size + (Frame.encode d).length ≤ s.maxSize := by
        rcases keeps with long | room
        · exact absurd fit (Nat.not_le_of_lt long)
        · exact room
      have appended : s.insert d disk = (.ok (), s.append (Frame.encode d) disk) :=
        Segment.insert_of_room disk fit room
      have still := sole.insert d
      rw [appended] at still
      rw [insert_segment, appended]
      refine ⟨rfl, still, ?_, ?_⟩
      · rw [sole.inPlace.bytes_append, bytes, Frame.encodeAll_append, Frame.encodeAll_cons,
          Frame.encodeAll_nil, List.append_nil]
      · intro e member
        rcases List.mem_append.mp member with old | new
        · exact fits e old
        · rw [List.mem_singleton.mp new]
          exact fit
    · right
      rw [insert_segment, Segment.insert_of_not_fits s disk fit]
      exact ⟨_, rfl, rfl⟩

end Retains

end Store

end TraceJournal
