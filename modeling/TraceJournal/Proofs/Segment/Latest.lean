import TraceJournal.Proofs.Segment.History

/-!
# The document inserted last

A cut leaves the newest documents that have room in three quarters of the bound. The document whose
insertion led to the cut comes last among them, unless its own frame is longer than that: then no
document is left at all, even though a file with only that frame would not be too long.
-/

namespace TraceJournal

namespace Frame

/-- The document at the end is left exactly if its own frame has room, and nothing is left
otherwise. -/
theorem newest_append_singleton (limit : Nat) (docs : List Document) (d : Document) :
    newest limit (docs ++ [d]) =
      if (encode d).length ≤ limit then newest (limit - (encode d).length) docs ++ [d] else [] := by
  induction docs with
  | nil => simp [newest]
  | cons e rest ih =>
    rw [List.cons_append, newest, ih, newest]
    simp only [total_cons, total_append, total_nil]
    by_cases whole : (encode e).length + (total rest + ((encode d).length + 0)) ≤ limit
    · rw [if_pos whole, if_pos (by omega), if_pos (by omega)]
      rfl
    · rw [if_neg whole]
      by_cases room : (encode d).length ≤ limit
      · rw [if_pos room, if_pos room, if_neg (by omega)]
      · rw [if_neg room, if_neg room]

theorem getLast?_newest_append (limit : Nat) (docs : List Document) (d : Document) :
    (newest limit (docs ++ [d])).getLast? = some d ↔ (encode d).length ≤ limit := by
  rw [newest_append_singleton]
  by_cases room : (encode d).length ≤ limit
  · simp [room]
  · simp [room]

end Frame

namespace History.Tail

variable {h : History} {path : Path} {kept : List Document}

/-- A document is accepted exactly if it fits into a frame. -/
theorem accepts_iff (t : h.Tail path kept) {d : Document} (reads : d.ReadsBack) :
    (h.store.insert d h.disk).1 = .ok () ↔ d.Fits := by
  constructor
  · intro accepted
    by_contra long
    rw [Segment.insert_of_not_fits h.store h.disk long] at accepted
    cases accepted
  · intro fits
    obtain ⟨s', disk', inserted, -⟩ := t.holds.insert reads fits
    rw [inserted]

/-- What is found after a document was accepted. -/
theorem documents_insert (t : h.Tail path kept) {d : Document} (reads : d.ReadsBack)
    (accepted : (h.store.insert d h.disk).1 = .ok ()) :
    (h.next (.insert d)).store.documents (h.next (.insert d)).disk =
      .ok (if Frame.total (kept ++ [d]) ≤ h.store.maxSize then kept ++ [d]
        else Frame.newest (h.store.maxSize / 4 * 3) (kept ++ [d])) := by
  have fits := (t.accepts_iff reads).mp accepted
  obtain ⟨s', disk', inserted, -, -, held⟩ := t.holds.insert reads fits
  simp only [next, inserted]
  exact held.documents_eq

end History.Tail

/-- On one file that was empty when it was opened first, after any insertions of documents that are
read back from their payloads and any openings with other bounds: a document that is accepted is the
last one in the store exactly if the file with its frame was not too long, or else its frame alone
is not longer than three quarters of the bound. Otherwise the store is empty afterwards. -/
theorem Segment.keeps_latest_iff {path : Path} {maxSize : Nat} {s : Segment} {disk disk' : Disk}
    {actions : List History.Action} {h : History} {d : Document}
    (opened : openAt path maxSize disk = (.ok s, disk')) (empty : s.bytes disk' = [])
    (reads : ∀ e, .insert e ∈ actions → e.ReadsBack)
    (reached : h = History.run ⟨s, disk', []⟩ actions) (back : d.ReadsBack)
    (accepted : (h.store.insert d h.disk).1 = .ok ()) :
    ∃ before after, h.store.documents h.disk = .ok before ∧
      (h.next (.insert d)).store.documents (h.next (.insert d)).disk = .ok after ∧
      (after.getLast? = some d ↔ Frame.total (before ++ [d]) ≤ h.store.maxSize ∨
        (Frame.encode d).length ≤ h.store.maxSize / 4 * 3) ∧
      (after.getLast? ≠ some d → after = []) := by
  have start : History.Tail ⟨s, disk', []⟩ path [] :=
    ⟨(inPlace_of_openAt opened).2.1, .of_empty opened empty, List.suffix_rfl⟩
  obtain ⟨kept, tail⟩ := start.run reads
  rw [← reached] at tail
  refine ⟨kept, _, tail.holds.documents_eq, tail.documents_insert back accepted, ?_, ?_⟩
  · by_cases within : Frame.total (kept ++ [d]) ≤ h.store.maxSize
    · rw [if_pos within]
      simp only [List.getLast?_concat, within, true_or]
    · rw [if_neg within, Frame.getLast?_newest_append]
      simp only [within, false_or]
  · intro lost
    by_cases within : Frame.total (kept ++ [d]) ≤ h.store.maxSize
    · rw [if_pos within] at lost
      exact absurd List.getLast?_concat lost
    · rw [if_neg within, ne_eq, Frame.getLast?_newest_append] at lost
      rw [if_neg within, Frame.newest_append_singleton, if_neg lost]

/-- A frame of 62 bytes is not longer than the bound, but longer than three quarters of it: the
second of two such documents is accepted, and nothing is left. -/
theorem Segment.keeps_latest_iff_long :
    let d : Document := ⟨⟨0, 0, by decide, by decide, by decide, by decide⟩, 1, .null⟩
    ∃ s disk', openAt ⟨"traces"⟩ 80 (.ofFile []) = (.ok s, disk') ∧ s.bytes disk' = [] ∧
      d.ReadsBack ∧ (Frame.encode d).length ≤ 80 ∧
      let h := History.run ⟨s, disk', []⟩ [.insert d]
      (h.store.insert d h.disk).1 = .ok () ∧
      (h.next (.insert d)).store.documents (h.next (.insert d)).disk = .ok [] := by
  intro d
  obtain ⟨s, disk', opened, bytes⟩ := openAt_of_file (Disk.file_ofFile []) 80
  have empty : s.bytes disk' = [] := bytes
  obtain ⟨back, fits, frame⟩ : d.ReadsBack ∧ d.Fits ∧ (Frame.encode d).length = 62 :=
    Frame.encode_keeping_nothing
  have reads : ∀ e, .insert e ∈ [History.Action.insert d] → e.ReadsBack := by
    intro e he
    simp only [List.mem_singleton, History.Action.insert.injEq] at he
    rw [he]
    exact back
  have start : History.Tail ⟨s, disk', []⟩ ⟨"traces"⟩ [] :=
    ⟨(inPlace_of_openAt opened).2.1, .of_empty opened empty, List.suffix_rfl⟩
  obtain ⟨s₁, disk₁, inserted, -, bound, held⟩ := start.holds.insert back fits
  have maxSize : s₁.maxSize = 80 := bound.trans (inPlace_of_openAt opened).2.2.1
  have one : (History.run ⟨s, disk', []⟩ [.insert d]).store = s₁ ∧
      (History.run ⟨s, disk', []⟩ [.insert d]).disk = disk₁ := by
    simp only [History.run, List.foldl_cons, List.foldl_nil, History.next, inserted, and_self]
  obtain ⟨kept, tail⟩ := start.run reads
  have accepted := (tail.accepts_iff back).mpr fits
  obtain ⟨before, after, found, left, last, none⟩ :=
    keeps_latest_iff opened empty reads rfl back accepted
  refine ⟨s, disk', opened, empty, back, by omega, accepted, ?_⟩
  rw [one.1, one.2, held.documents_eq] at found
  have room : Frame.total ([] ++ [d]) ≤ s.maxSize := by
    rw [(inPlace_of_openAt opened).2.2.1, List.nil_append, Frame.total_cons, Frame.total_nil]
    omega
  rw [if_pos room] at found
  cases found
  rw [left, none]
  intro kept
  rw [last, one.1, maxSize, List.nil_append, List.singleton_append] at kept
  simp only [Frame.total_cons, Frame.total_nil] at kept
  omega

end TraceJournal
