import TraceJournal.Proofs.Segment.Eviction

/-!
# The history of a segment file

One file, used by one store at a time: documents are inserted, and the store is opened again with
any bound on the length of the file. Whatever happens, the store holds an end of the list of all
documents that it ever accepted, and everything that it answers is told by that end.
-/

namespace TraceJournal

/-- The store that uses a file, with the disk and all documents that were ever accepted. -/
structure History where
  store : Segment
  disk : Disk
  inserted : List Document

namespace History

/-- What happens to a file. -/
inductive Action where
  /-- A document is inserted. -/
  | insert (d : Document)
  /-- The store is opened again, with another bound. -/
  | reopen (maxSize : Nat)

/-- The file after an action. -/
def next (h : History) : Action → History
  | .insert d =>
    let (result, store, disk) := h.store.insert d h.disk
    ⟨store, disk, if result.isOk then h.inserted ++ [d] else h.inserted⟩
  | .reopen maxSize =>
    let (result, disk) := Segment.openAt h.store.path maxSize h.disk
    ⟨result.toOption.getD h.store, disk, h.inserted⟩

/-- The file after some actions. -/
def run (h : History) (actions : List Action) : History := actions.foldl next h

theorem run_cons (h : History) (action : Action) (rest : List Action) :
    h.run (action :: rest) = (h.next action).run rest := by
  rw [run, List.foldl_cons, run]

end History

/-- Everything that a store answers about its documents is told by the list `docs`. -/
structure Segment.Answers (s : Segment) (disk : Disk) (docs : List Document) : Prop where
  documents : s.documents disk = .ok docs
  existsFrom : ∀ source, s.existsFrom source disk = .ok (docs.any fun d => source ≤ d.time)
  lastSerial : s.lastSerial disk = .ok (docs.map Document.serial).max?
  size : s.size = Frame.total docs

theorem Segment.Holds.answers {s : Segment} {disk : Disk} {docs : List Document}
    (h : s.Holds disk docs) : s.Answers disk docs :=
  ⟨h.documents_eq, h.existsFrom_eq, h.lastSerial_eq, h.size_eq⟩

namespace History

/-- The store under a path holds an end of the accepted documents. -/
structure Tail (h : History) (path : Path) (kept : List Document) : Prop where
  path_eq : h.store.path = path
  holds : h.store.Holds h.disk kept
  suffix : kept <:+ h.inserted

namespace Tail

variable {h : History} {path : Path} {kept : List Document}

theorem suffix_append (t : h.Tail path kept) (d : Document) : kept ++ [d] <:+ h.inserted ++ [d] :=
  (List.suffix_append_inj_of_length_eq rfl).mpr ⟨t.suffix, rfl⟩

/-- Inserting a document, whether it fits or not. -/
theorem insert (t : h.Tail path kept) {d : Document} (reads : d.ReadsBack) :
    ∃ kept', (h.next (.insert d)).Tail path kept' := by
  by_cases fits : d.Fits
  · obtain ⟨s', disk', inserted, samePath, -, held⟩ := t.holds.insert reads fits
    have grown := t.suffix_append d
    simp only [next, inserted]
    refine ⟨_, samePath.trans t.path_eq, held, ?_⟩
    split
    · exact grown
    · exact (Frame.newest_suffix _ _).trans grown
  · simp only [next, Segment.insert_of_not_fits _ _ fits]
    exact ⟨kept, t⟩

/-- Opening the store again. -/
theorem reopen (t : h.Tail path kept) (maxSize : Nat) :
    (h.next (.reopen maxSize)).Tail path kept := by
  obtain ⟨s', disk', opened, samePath, -, held⟩ := t.holds.openAt maxSize
  simp only [next, opened]
  exact ⟨samePath.trans t.path_eq, held, t.suffix⟩

/-- Any number of actions. -/
theorem run (t : h.Tail path kept) {actions : List Action}
    (reads : ∀ d, .insert d ∈ actions → d.ReadsBack) :
    ∃ kept', (h.run actions).Tail path kept' := by
  induction actions generalizing h kept with
  | nil => exact ⟨kept, t⟩
  | cons action rest ih =>
    have later (d : Document) (hd : .insert d ∈ rest) : d.ReadsBack :=
      reads d (List.mem_cons_of_mem _ hd)
    rw [run_cons]
    cases action with
    | insert d =>
      obtain ⟨kept', t'⟩ := t.insert (reads d List.mem_cons_self)
      exact ih t' later
    | reopen maxSize => exact ih (t.reopen maxSize) later

end Tail

/-- What a store does that keeps the documents `kept` of all that were accepted. -/
structure Serves (h : History) (path : Path) (kept : List Document) : Prop where
  suffix : kept <:+ h.inserted
  answers : h.store.Answers h.disk kept
  /-- A document that leaves the file short enough comes to the end. -/
  appends : ∀ d : Document, d.ReadsBack → d.Fits →
    Frame.total (kept ++ [d]) ≤ h.store.maxSize → ∃ s disk,
      h.store.insert d h.disk = (.ok (), s, disk) ∧ s.Answers disk (kept ++ [d])
  /-- Otherwise the longest end of all documents is left that has three quarters of the bound. -/
  cuts : ∀ d : Document, d.ReadsBack → d.Fits →
    h.store.maxSize < Frame.total (kept ++ [d]) → ∃ s disk left,
      h.store.insert d h.disk = (.ok (), s, disk) ∧ s.Answers disk left ∧
      left <:+ h.inserted ++ [d] ∧ Frame.total left ≤ h.store.maxSize / 4 * 3 ∧
      ∀ tail, tail <:+ h.inserted ++ [d] → Frame.total tail ≤ h.store.maxSize / 4 * 3 →
        tail <:+ left
  /-- A document that fits into no frame changes nothing. -/
  refuses : ∀ d : Document, ¬d.Fits → h.store.insert d h.disk =
    (.error (.serialization Segment.tooLargeText), h.store, h.disk)
  /-- Opening the store again changes nothing but the bound. -/
  reopens : ∀ maxSize, ∃ s disk, Segment.openAt path maxSize h.disk = (.ok s, disk) ∧
    s.maxSize = maxSize ∧ s.Answers disk kept

theorem Tail.serves {h : History} {path : Path} {kept : List Document} (t : h.Tail path kept) :
    h.Serves path kept where
  suffix := t.suffix
  answers := t.holds.answers
  appends d reads fits within := by
    obtain ⟨s, disk, inserted, -, -, held⟩ := t.holds.insert reads fits
    rw [if_pos within] at held
    exact ⟨s, disk, inserted, held.answers⟩
  cuts d reads fits beyond := by
    obtain ⟨s, disk, inserted, -, -, held⟩ := t.holds.insert reads fits
    rw [if_neg (Nat.not_le_of_lt beyond)] at held
    have grown := t.suffix_append d
    refine ⟨s, disk, _, inserted, held.answers, (Frame.newest_suffix _ _).trans grown,
      Frame.total_newest_le _ _, ?_⟩
    intro tail all short
    apply Frame.suffix_newest _ short
    -- An end that was longer than what stood in the file would be too long.
    rcases List.suffix_or_suffix_of_suffix all grown with inside | outside
    · exact inside
    · have := Frame.total_le_of_suffix outside
      omega
  refuses d long := Segment.insert_of_not_fits _ _ long
  reopens maxSize := by
    obtain ⟨s, disk, again, -, bound, held⟩ := t.holds.openAt maxSize
    rw [t.path_eq] at again
    exact ⟨s, disk, again, bound, held.answers⟩

end History

/-- On one file that was empty when it was opened first, after any insertions of documents that are
read back from their payloads and any openings with other bounds, the store keeps an end of the list
of all accepted documents. -/
theorem Segment.serves_accepted {path : Path} {maxSize : Nat} {s : Segment} {disk disk' : Disk}
    {actions : List History.Action} (opened : openAt path maxSize disk = (.ok s, disk'))
    (empty : s.bytes disk' = []) (reads : ∀ d, .insert d ∈ actions → d.ReadsBack) :
    ∃ kept, (History.run ⟨s, disk', []⟩ actions).Serves path kept := by
  have start : History.Tail ⟨s, disk', []⟩ path [] :=
    ⟨(inPlace_of_openAt opened).2.1, .of_empty opened empty, List.suffix_rfl⟩
  obtain ⟨kept, tail⟩ := start.run reads
  exact ⟨kept, tail.serves⟩

/-- The first bound leaves room for three of the documents, the second one only for one. -/
theorem Segment.serves_accepted_reopened :
    let d : Document := ⟨⟨0, 0, by decide, by decide, by decide, by decide⟩, 1, .null⟩
    let actions : List History.Action :=
      [.insert d, .insert d, .insert d, .insert d, .reopen 100, .insert d]
    ∃ s disk', openAt ⟨"traces"⟩ 200 (.ofFile []) = (.ok s, disk') ∧ s.bytes disk' = [] ∧
      d.ReadsBack ∧ ∃ kept, (History.run ⟨s, disk', []⟩ actions).Serves ⟨"traces"⟩ kept := by
  intro d actions
  obtain ⟨s, disk', opened, bytes⟩ := openAt_of_file (Disk.file_ofFile []) 200
  have empty : s.bytes disk' = [] := bytes
  have reads : d.ReadsBack := by decide +kernel
  refine ⟨s, disk', opened, empty, reads, serves_accepted opened empty ?_⟩
  intro e he
  simp only [actions, List.mem_cons, History.Action.insert.injEq, reduceCtorEq, false_or,
    List.not_mem_nil, or_false, or_self] at he
  rw [he]
  exact reads

end TraceJournal
