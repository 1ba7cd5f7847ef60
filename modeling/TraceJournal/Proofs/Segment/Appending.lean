import TraceJournal.Proofs.Segment.History
import TraceJournal.Proofs.Store.Cursor

/-!
# Appending behind anything

A store that was opened on a file of any bytes appends behind them. As long as the file is not cut,
it holds those bytes and then the frames of what was inserted, and what the store finds is what is
read from all of that in one piece.
-/

namespace TraceJournal

namespace History

/-- The store has appended the frames of some documents, and nothing else, behind the bytes that
stood in its file. -/
structure Behind (h : History) (start : List UInt8) (docs : List Document) : Prop where
  inPlace : h.store.InPlace h.disk
  bytes_eq : h.store.bytes h.disk = start ++ Frame.encodeAll docs
  size_eq : h.store.size = start.length + Frame.total docs
  inserted_eq : h.inserted = docs

namespace Behind

variable {h : History} {start : List UInt8} {docs : List Document}

/-- A store that was just opened has appended nothing. -/
theorem of_openAt {path : Path} {maxSize : Nat} {s : Segment} {disk disk' : Disk}
    (opened : Segment.openAt path maxSize disk = (.ok s, disk')) :
    Behind ⟨s, disk', []⟩ (s.bytes disk') [] := by
  obtain ⟨inPlace, -, -, size⟩ := Segment.inPlace_of_openAt opened
  exact ⟨inPlace, (List.append_nil _).symm, size, rfl⟩

/-- A document for which there is room. -/
theorem insert (b : h.Behind start docs) {d : Document} (fits : d.Fits)
    (room : start.length + Frame.total (docs ++ [d]) ≤ h.store.maxSize) :
    (h.next (.insert d)).Behind start (docs ++ [d]) ∧
      (h.next (.insert d)).store.maxSize = h.store.maxSize := by
  have size : (h.store.append (Frame.encode d) h.disk).1.size =
      start.length + Frame.total (docs ++ [d]) := by
    rw [Frame.total_append, Frame.total_cons, Frame.total_nil, Nat.add_zero, ← Nat.add_assoc,
      ← b.size_eq]
    rfl
  have inserted := Segment.insert_of_room h.disk fits (size ▸ room)
  simp only [next, inserted]
  refine ⟨⟨b.inPlace.append _, ?_, size, ?_⟩, rfl⟩
  · rw [b.inPlace.bytes_append, b.bytes_eq, List.append_assoc, Frame.encodeAll_append,
      Frame.encodeAll_cons, Frame.encodeAll_nil, List.append_nil]
  · rw [b.inserted_eq]
    rfl

/-- Any number of documents for which there is room. -/
theorem run (b : h.Behind start docs) {more : List Document} (fits : ∀ d ∈ more, d.Fits)
    (room : more ≠ [] → start.length + Frame.total (docs ++ more) ≤ h.store.maxSize) :
    (h.run (more.map .insert)).Behind start (docs ++ more) := by
  induction more generalizing h docs with
  | nil =>
    rw [List.append_nil]
    exact b
  | cons d rest ih =>
    have bound := room (List.cons_ne_nil d rest)
    rw [Frame.total_append, Frame.total_cons] at bound
    obtain ⟨b', same⟩ := b.insert (fits d List.mem_cons_self) (by
      rw [Frame.total_append, Frame.total_cons, Frame.total_nil]
      omega)
    have later := ih b' (fun e he => fits e (List.mem_cons_of_mem d he)) (by
      intro
      rw [same, List.append_assoc, List.singleton_append, Frame.total_append, Frame.total_cons]
      exact bound)
    rw [List.append_assoc, List.singleton_append] at later
    rw [List.map_cons, run_cons]
    exact later

end Behind

/-- The documents of the store are `docs`: that is what it answers, and a cursor yields those of them
that are not before its time. -/
structure Finds (h : History) (docs : List Document) : Prop where
  documents : h.store.documents h.disk = .ok docs
  existsFrom : ∀ source, h.store.existsFrom source h.disk = .ok (docs.any fun d => source ≤ d.time)
  lastSerial : h.store.lastSerial h.disk = .ok (docs.map Document.serial).max?
  cursor : ∀ source, ∃ c, (Store.segment h.store h.disk).tailFrom source = .ok c ∧
    c.Yields (.segment h.store h.disk) (docs.filter fun d => source ≤ d.time)

theorem Behind.finds {h : History} {start : List UInt8} {docs : List Document}
    (b : h.Behind start docs) : h.Finds (Frame.documents (start ++ Frame.encodeAll docs)) := by
  have documents := b.inPlace.documents_eq
  have existsFrom := b.inPlace.existsFrom_eq
  have lastSerial := b.inPlace.lastSerial_eq
  rw [b.bytes_eq] at documents existsFrom lastSerial
  refine ⟨documents, existsFrom, lastSerial, fun source => ?_⟩
  have opened : (Store.segment h.store h.disk).tailFrom source =
      .ok (.segment { file := h.store.file, window := .atPlace 0, offset := 0, source
                      number := h.store.number, opened := h.disk.cutsOf h.store.number }) := by
    simp only [Store.tailFrom, b.inPlace.tailFrom_eq]
    rfl
  have follows : (Cursor.segment { file := h.store.file, window := .atPlace 0, offset := 0, source
                                   number := h.store.number
                                   opened := h.disk.cutsOf h.store.number }).Follows
      (.segment h.store h.disk) [] :=
    (SegmentCursor.follows_tailFrom (b.inPlace.tailFrom_eq source)).1
  exact ⟨_, opened, follows.yields documents⟩

/-- A store finds only one list of documents. -/
theorem Finds.iff {h : History} {docs docs' : List Document} (f : h.Finds docs) :
    h.Finds docs' ↔ docs = docs' := by
  constructor
  · intro f'
    exact Except.ok.inj (f.documents.symm.trans f'.documents)
  · rintro rfl
    exact f

end History

end TraceJournal
