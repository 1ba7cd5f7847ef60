import TraceJournal.Proofs.Segment.Eviction
import TraceJournal.Proofs.Segment.Insertion

/-!
# Stores alone with their files

A segment store that is the only one to use its file, whatever stands in that, knows where the file
ends. An insertion then fails only if it changes nothing, and otherwise adds what the new frame
completes behind the documents of the file, of which a cut removes the oldest ones.
-/

namespace TraceJournal

namespace Frame

/-- A document of a scan stands behind frames that are passed over. -/
theorem Passes.exists_of_mem {file : List UInt8} {start stop : Nat} {passed : List (Nat × Document)}
    (h : Passes file start passed stop) {p : Nat × Document} (hp : p ∈ passed) :
    ∃ before, Passes file start before p.1 := by
  induction h with
  | stay => cases hp
  | @document passed place next d before _ ih =>
    rcases List.mem_append.mp hp with old | new
    · exact ih old
    · rw [List.mem_singleton.mp new]
      exact ⟨passed, before⟩
  | damaged _ _ ih => exact ih hp

/-- From a place in a file that is reached over whole frames, the last documents are found. -/
theorem Passes.documents_suffix {file : List UInt8} {place : Nat} {passed : List (Nat × Document)}
    (h : Passes file 0 passed place) : documents (file.drop place) <:+ documents file := by
  rw [documents_drop, documents, scan_eq_scanAt, h.scanAt_eq, List.map_append]
  exact List.suffix_append _ _

/-- Behind a file of whole frames, what follows is read as if it stood alone. -/
theorem documents_append_of_passes {file : List UInt8} {passed : List (Nat × Document)}
    (whole : Passes file 0 passed file.length) (more : List UInt8) :
    documents (file ++ more) = documents file ++ documents more := by
  have behind := documents_drop (file ++ more) file.length
  have ends := documents_drop file file.length
  rw [List.drop_left] at behind
  rw [List.drop_length, show documents [] = [] from rfl] at ends
  simp only [documents, scan_eq_scanAt] at behind ends ⊢
  rw [(whole.append more).scanAt_eq, whole.scanAt_eq, List.map_append, List.map_append, ← behind,
    ← ends, List.append_nil]

end Frame

namespace Segment

/-- A file is cut where one of its frames starts, or at its end. -/
theorem exists_cutPlace (kept : Nat) {size : Nat} {offsets : List Nat}
    (inside : ∀ n ∈ offsets, n ≤ size) :
    ∃ place, cutPlace? size kept offsets = some place ∧ (place ∈ offsets ∨ place = size) := by
  induction offsets with
  | nil => exact ⟨size, rfl, .inr rfl⟩
  | cons n rest ih =>
    have within := inside n List.mem_cons_self
    rw [cutPlace?, if_neg (by omega)]
    split
    · exact ⟨n, rfl, .inl List.mem_cons_self⟩
    · obtain ⟨place, found, there⟩ := ih fun m hm => inside m (List.mem_cons_of_mem n hm)
      exact ⟨place, found, there.imp_left (List.mem_cons_of_mem n)⟩

/-- The store is the only one that uses its file. -/
structure Sole (s : Segment) (disk : Disk) : Prop where
  inPlace : s.InPlace disk
  size_eq : s.size = (s.bytes disk).length
  known : s.number < disk.cuts.length

/-- The documents in the file. -/
def held (s : Segment) (disk : Disk) : List Document := Frame.documents (s.bytes disk)

/-- The documents that the frame of one more document completes. -/
def added (d : Document) (s : Segment) (disk : Disk) : List Document :=
  (Frame.documents (s.bytes disk ++ Frame.encode d)).drop (s.held disk).length

/-- Documents are added behind those in the file. -/
theorem held_append_added (s : Segment) (disk : Disk) (d : Document) :
    s.held disk ++ s.added d disk = Frame.documents (s.bytes disk ++ Frame.encode d) :=
  List.prefix_iff_eq_append.mp (Frame.documents_prefix_append _ _)

namespace Sole

variable {s : Segment} {disk : Disk}

/-- A store that was just opened, if no other uses its file. -/
theorem of_openAt {path : Path} {maxSize : Nat} {disk' : Disk}
    (opened : openAt path maxSize disk = (.ok s, disk')) : s.Sole disk' := by
  obtain ⟨inPlace, -, -, size⟩ := inPlace_of_openAt opened
  exact ⟨inPlace, size, number_lt_of_openAt opened⟩

/-- A cut finds a place: where a frame of the file starts, or its end. -/
theorem exists_cutPlace (h : s.Sole disk) (d : Document) :
    ∃ place, cutPlace? (s.size + (Frame.encode d).length) s.keptSize
        ((Frame.scan (s.bytes disk ++ Frame.encode d)).map (·.1)) = some place ∧
      ((∃ passed, Frame.Passes (s.bytes disk ++ Frame.encode d) 0 passed place) ∨
        place = (s.bytes disk ++ Frame.encode d).length) := by
  have size : s.size + (Frame.encode d).length = (s.bytes disk ++ Frame.encode d).length := by
    rw [h.size_eq, List.length_append]
  rw [size]
  generalize s.bytes disk ++ Frame.encode d = file
  obtain ⟨stop, passes, -⟩ := Frame.exists_passes_scanAt file 0
  have reached (n : Nat) (hn : n ∈ (Frame.scan file).map (·.1)) :
      ∃ before, Frame.Passes file 0 before n := by
    obtain ⟨p, hp, rfl⟩ := List.mem_map.mp hn
    exact passes.exists_of_mem hp
  have inside (n : Nat) (hn : n ∈ (Frame.scan file).map (·.1)) : n ≤ file.length := by
    obtain ⟨before, here⟩ := reached n hn
    exact here.le_length (Nat.zero_le _)
  obtain ⟨place, found, there⟩ := Segment.exists_cutPlace s.keptSize inside
  exact ⟨place, found, there.imp_left (reached place)⟩

/-- A cut leaves the last documents. -/
theorem exists_cut (h : s.Sole disk) (d : Document) :
    ∃ place, cutPlace? (s.size + (Frame.encode d).length) s.keptSize
        ((Frame.scan (s.bytes disk ++ Frame.encode d)).map (·.1)) = some place ∧
      Frame.documents ((s.bytes disk ++ Frame.encode d).drop place) <:+
        Frame.documents (s.bytes disk ++ Frame.encode d) := by
  obtain ⟨place, found, ⟨before, here⟩ | rfl⟩ := h.exists_cutPlace d
  · exact ⟨place, found, here.documents_suffix⟩
  · refine ⟨_, found, ?_⟩
    rw [List.drop_length]
    exact List.nil_suffix

/-- The end of the file is known after every insertion. -/
theorem insert (h : s.Sole disk) (d : Document) :
    (s.insert d disk).2.1.Sole (s.insert d disk).2.2 := by
  have placed := h.inPlace.insert d
  have inserted := h.inPlace.inserted d
  have known : (s.insert d disk).2.1.number < (s.insert d disk).2.2.cuts.length := by
    rw [inserted.number_eq, inserted.cuts_length]
    exact h.known
  refine ⟨placed, ?_, known⟩
  have size : (s.append (Frame.encode d) disk).1.size =
      ((s.append (Frame.encode d) disk).1.bytes (s.append (Frame.encode d) disk).2).length := by
    rw [h.inPlace.bytes_append, List.length_append, ← h.size_eq]
    rfl
  clear placed known
  generalize s.insert d disk = answer at inserted ⊢
  cases inserted with
  | refused => exact h.size_eq
  | appended | stuck => exact size
  | cut => exact congrArg List.length ((h.inPlace.append _).bytes_withLeft _).symm

/-- An insertion that fails changes nothing. -/
theorem insert_error (h : s.Sole disk) {d : Document} {e : StoreError}
    (failed : (s.insert d disk).1 = .error e) : (s.insert d disk).2 = (s, disk) := by
  have inserted := h.inPlace.inserted d
  generalize s.insert d disk = answer at inserted failed ⊢
  cases inserted with
  | refused => rfl
  | appended | cut => cases failed
  | stuck _ _ none =>
    obtain ⟨place, found, -⟩ := h.exists_cut d
    rw [found] at none
    cases none

/-- A document for which there is room is appended. -/
theorem held_of_room (h : s.Sole disk) {d : Document} (accepted : (s.insert d disk).1 = .ok ())
    (room : ¬s.Overflows d) :
    (s.insert d disk).2.1.held (s.insert d disk).2.2 = s.held disk ++ s.added d disk := by
  have inserted := h.inPlace.inserted d
  generalize s.insert d disk = answer at inserted accepted ⊢
  cases inserted with
  | refused => cases accepted
  | appended => rw [held_append_added, held, h.inPlace.bytes_append]
  | cut _ overflows => exact absurd overflows room
  | stuck => cases accepted

/-- Whatever a cut removes, the last documents are left. -/
theorem held_suffix (h : s.Sole disk) {d : Document} (accepted : (s.insert d disk).1 = .ok ()) :
    (s.insert d disk).2.1.held (s.insert d disk).2.2 <:+ s.held disk ++ s.added d disk := by
  by_cases overflows : s.Overflows d
  · have inserted := h.inPlace.inserted d
    obtain ⟨place, found, suffix⟩ := h.exists_cut d
    generalize s.insert d disk = answer at inserted accepted ⊢
    cases inserted with
    | refused => cases accepted
    | appended _ room => exact absurd overflows room
    | cut _ _ cut =>
      rw [found] at cut
      cases cut
      rw [held_append_added, held, (h.inPlace.append _).bytes_withLeft]
      exact suffix
    | stuck => cases accepted
  · simp only [h.held_of_room accepted overflows, List.suffix_rfl]

end Sole

end Segment

end TraceJournal
