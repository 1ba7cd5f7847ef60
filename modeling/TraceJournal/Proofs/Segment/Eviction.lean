import TraceJournal.Proofs.Segment.Contents
import TraceJournal.Proofs.Segment.Place

/-!
# Inserting and cutting

A segment store over a file that holds exactly the frames of some documents goes on like that. An
insertion adds the frame of one document at the end; when the file is too long then, the cut leaves
the longest end of the documents that is not longer than it may be.
-/

namespace TraceJournal

namespace Frame

/-! ## The newest documents -/

/-- The longest end of some documents whose frames have at most `limit` bytes. -/
def newest (limit : Nat) : List Document → List Document
  | [] => []
  | d :: rest => if total (d :: rest) ≤ limit then d :: rest else newest limit rest

theorem newest_suffix (limit : Nat) (docs : List Document) : newest limit docs <:+ docs := by
  induction docs with
  | nil => exact List.suffix_rfl
  | cons d rest ih =>
    unfold newest
    split
    · exact List.suffix_rfl
    · exact ih.trans (List.suffix_cons d rest)

theorem total_newest_le (limit : Nat) (docs : List Document) :
    total (newest limit docs) ≤ limit := by
  induction docs with
  | nil => exact Nat.zero_le _
  | cons d rest ih =>
    unfold newest
    split
    · assumption
    · exact ih

/-- No longer end of the documents is short enough. -/
theorem suffix_newest {limit : Nat} {docs tail : List Document} (h : tail <:+ docs)
    (short : total tail ≤ limit) : tail <:+ newest limit docs := by
  induction docs with
  | nil => exact h
  | cons d rest ih =>
    unfold newest
    split
    · exact h
    · next long =>
      rcases List.suffix_cons_iff.mp h with rfl | h'
      · exact absurd short long
      · exact ih h'

theorem total_le_of_suffix {tail docs : List Document} (h : tail <:+ docs) :
    total tail ≤ total docs := by
  obtain ⟨front, rfl⟩ := h
  rw [total_append]
  exact Nat.le_add_left _ _

/-- What is left of a file of frames behind the first ones. -/
theorem drop_encodeAll_of_suffix {tail docs : List Document} (h : tail <:+ docs) :
    (encodeAll docs).drop (total docs - total tail) = encodeAll tail := by
  obtain ⟨front, rfl⟩ := h
  rw [total_append, Nat.add_sub_cancel, encodeAll_append, List.drop_left' (length_encodeAll front)]

end Frame

namespace Segment

/-- A file of frames is cut where its newest documents start. -/
theorem cutPlace?_places (start kept : Nat) (docs : List Document) :
    cutPlace? (start + Frame.total docs) kept ((Frame.places start docs).map (·.1)) =
      some (start + (Frame.total docs - Frame.total (Frame.newest kept docs))) := by
  induction docs generalizing start with
  | nil => rfl
  | cons d rest ih =>
    rw [Frame.places, List.map_cons, cutPlace?, if_neg (by omega), Nat.add_sub_cancel_left,
      Frame.newest]
    split
    · rw [Nat.sub_self, Nat.add_zero]
    · have shorter := Frame.total_le_of_suffix (Frame.newest_suffix kept rest)
      have next := ih (start + (Frame.encode d).length)
      rw [Nat.add_assoc, ← Frame.total_cons] at next
      rw [next, Frame.total_cons]
      congr 1
      omega

/-- The store is in place, its file holds exactly the frames of some documents that can be read
back, and the store knows where the file ends. -/
structure Holds (s : Segment) (disk : Disk) (docs : List Document) : Prop where
  inPlace : s.InPlace disk
  bytes_eq : s.bytes disk = Frame.encodeAll docs
  size_eq : s.size = Frame.total docs
  readable : ∀ d ∈ docs, d.ReadsBack ∧ d.Fits

namespace Holds

variable {s : Segment} {disk : Disk} {docs : List Document}

theorem documents_eq (h : s.Holds disk docs) : s.documents disk = .ok docs := by
  rw [h.inPlace.documents_eq, h.bytes_eq, Frame.documents_encodeAll h.readable]

theorem existsFrom_eq (h : s.Holds disk docs) (source : Instant) :
    s.existsFrom source disk = .ok (docs.any fun d => source ≤ d.time) := by
  rw [h.inPlace.existsFrom_eq, h.bytes_eq, Frame.documents_encodeAll h.readable]

theorem lastSerial_eq (h : s.Holds disk docs) :
    s.lastSerial disk = .ok (docs.map Document.serial).max? := by
  rw [h.inPlace.lastSerial_eq, h.bytes_eq, Frame.documents_encodeAll h.readable]

/-- Appending the frame of a document. -/
theorem append (h : s.Holds disk docs) {d : Document} (reads : d.ReadsBack) (fits : d.Fits) :
    (s.append (Frame.encode d) disk).1.Holds (s.append (Frame.encode d) disk).2 (docs ++ [d]) where
  inPlace := h.inPlace.append _
  bytes_eq := by
    rw [h.inPlace.bytes_append, h.bytes_eq, Frame.encodeAll_append, Frame.encodeAll_cons,
      Frame.encodeAll_nil, List.append_nil]
  size_eq := by
    rw [Frame.total_append, Frame.total_cons, Frame.total_nil, Nat.add_zero, ← h.size_eq]
    rfl
  readable := by
    intro e he
    rcases List.mem_append.mp he with old | new
    · exact h.readable e old
    · rw [List.mem_singleton.mp new]
      exact ⟨reads, fits⟩

/-- A cut succeeds, and leaves the newest documents. -/
theorem compact (h : s.Holds disk docs) :
    ∃ s' disk', s.compact disk = (.ok s', disk') ∧ s'.path = s.path ∧ s'.maxSize = s.maxSize ∧
      s'.Holds disk' (Frame.newest s.keptSize docs) := by
  have suffix := Frame.newest_suffix s.keptSize docs
  have place := cutPlace?_places 0 s.keptSize docs
  rw [Nat.zero_add, Nat.zero_add, ← Frame.scan_encodeAll h.readable, ← h.bytes_eq, ← h.size_eq]
    at place
  have cut := h.inPlace.compact_of_place place
  rw [h.bytes_eq, h.size_eq, Frame.drop_encodeAll_of_suffix suffix] at cut
  refine ⟨_, _, cut, rfl, rfl, ⟨?_⟩, ?_, ?_, ?_⟩
  · exact (Volume.file_write _ _ _ _).trans h.inPlace.file_path
  · exact Volume.bytes_write _ h.inPlace.file_lt _
  · exact Frame.length_encodeAll _
  · intro d hd
    exact h.readable d (suffix.subset hd)

/-- A document that fits is inserted; the newest documents are left if the file is too long then,
and all of them otherwise. -/
theorem insert (h : s.Holds disk docs) {d : Document} (reads : d.ReadsBack) (fits : d.Fits) :
    ∃ s' disk', s.insert d disk = (.ok (), s', disk') ∧ s'.path = s.path ∧
      s'.maxSize = s.maxSize ∧
      s'.Holds disk' (if Frame.total (docs ++ [d]) ≤ s.maxSize then docs ++ [d]
        else Frame.newest s.keptSize (docs ++ [d])) := by
  have appended := h.append reads fits
  by_cases within : Frame.total (docs ++ [d]) ≤ s.maxSize
  · have inserted := insert_of_room disk fits (appended.size_eq ▸ within)
    rw [if_pos within]
    exact ⟨_, _, inserted, rfl, rfl, appended⟩
  · have bound : (s.append (Frame.encode d) disk).1.maxSize = s.maxSize := rfl
    unfold Segment.insert
    rw [if_neg (Nat.not_lt_of_le fits), if_neg within]
    simp only [appended.size_eq, bound, if_neg within]
    obtain ⟨s', disk', cut, path, maxSize, held⟩ := appended.compact
    rw [cut]
    exact ⟨s', disk', rfl, path, maxSize, held⟩

/-- Opening the store again succeeds and loses nothing. -/
theorem openAt (h : s.Holds disk docs) (maxSize : Nat) :
    ∃ s' disk', Segment.openAt s.path maxSize disk = (.ok s', disk') ∧ s'.path = s.path ∧
      s'.maxSize = maxSize ∧ s'.Holds disk' docs := by
  refine ⟨_, _, h.inPlace.openAt_eq maxSize, rfl, rfl, ⟨h.inPlace.file_path⟩, h.bytes_eq, ?_,
    h.readable⟩
  rw [h.bytes_eq, Frame.length_encodeAll]

/-- A store that was just opened on a file without a byte holds nothing. -/
theorem of_empty {path : Path} {maxSize : Nat} {disk' : Disk}
    (opened : Segment.openAt path maxSize disk = (.ok s, disk')) (empty : s.bytes disk' = []) :
    s.Holds disk' [] := by
  obtain ⟨inPlace, -, -, size⟩ := inPlace_of_openAt opened
  refine ⟨inPlace, empty, ?_, ?_⟩
  · rw [size, empty]
    rfl
  · intro d hd
    cases hd

end Holds

end Segment

end TraceJournal
