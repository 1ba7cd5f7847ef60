import TraceJournal.Proofs.Segment.Whole

/-!
# What is left of a file of any bytes

A store alone with its file appends frames to it, whatever bytes stand there, and cuts the file when
it has become too long. Where it cuts is told by what a scan finds: a scan that stops early, or
passes over damaged frames, knows only some of the frames. What is left is scanned as it was before
the cut, every frame nearer to the front by the same number of bytes.
-/

namespace TraceJournal

namespace Frame

/-- Where a file is cut of which at most `kept` bytes are to be left: at the first document that is
found near enough to the end, or at the end if there is none. -/
def cutOf (kept : Nat) (file : List UInt8) : Nat :=
  ((starts file).find? fun n => file.length - n ≤ kept).getD file.length

/-- From where on a file is left that has room for `maxSize` bytes: all of it if it is not longer,
and otherwise at most three quarters of that. -/
def leftFrom (maxSize : Nat) (file : List UInt8) : Nat :=
  if file.length ≤ maxSize then 0 else cutOf (maxSize / 4 * 3) file

/-- What is found in a file from a place on, with the places that it has when all in front of that
is cut off. -/
def foundFrom (place : Nat) (file : List UInt8) : List (Nat × Document) :=
  ((scan file).filter fun p => place ≤ p.1).map fun p => (p.1 - place, p.2)

variable {file : List UInt8} {place : Nat}

theorem map_snd_foundFrom (place : Nat) (file : List UInt8) :
    (foundFrom place file).map (·.2) =
      ((scan file).filter fun p => place ≤ p.1).map (·.2) := by
  rw [foundFrom, List.map_map]
  rfl

/-- From a place that is reached over whole frames, a scan finds what it found before the cut, with
the places moved. -/
theorem Passes.scan_drop {passed : List (Nat × Document)} (h : Passes file 0 passed place) :
    scan (file.drop place) = foundFrom place file := by
  obtain ⟨stop, later, -⟩ := exists_passes_scanAt file place
  have before : passed.filter (fun p => place ≤ p.1) = [] := by
    refine List.filter_eq_nil_iff.mpr ?_
    intro p hp
    have front := h.rising.2 p.1 (List.mem_map_of_mem hp)
    simpa using front
  have behind : (scanAt file place).filter (fun p => place ≤ p.1) = scanAt file place := by
    refine List.filter_eq_self.mpr ?_
    intro p hp
    simpa using (later.stands.2.1 p hp).1
  have moved := scanAt_drop file place 0
  rw [Nat.add_zero] at moved
  rw [foundFrom, scan_eq_scanAt, scan_eq_scanAt, h.scanAt_eq, List.filter_append, before, behind,
    List.nil_append, moved, List.map_map]
  have back : ((fun p : Nat × Document => (p.1 - place, p.2)) ∘
      fun p : Nat × Document => (place + p.1, p.2)) = id := by
    funext p
    simp only [Function.comp_apply, Nat.add_sub_cancel_left, id_eq]
  exact ((List.map_id _).symm.trans (congrArg (List.map · _) back.symm))

/-- Behind the end of a file nothing is found. -/
theorem scan_drop_length (file : List UInt8) :
    scan (file.drop file.length) = foundFrom file.length file := by
  have none_behind : (scan file).filter (fun p => file.length ≤ p.1) = [] := by
    refine List.filter_eq_nil_iff.mpr ?_
    intro p hp
    simpa using lt_of_mem_scan (List.mem_map_of_mem (f := (·.1)) hp)
  rw [foundFrom, none_behind, List.drop_length]
  rfl

end Frame

namespace Segment

/-- If no frame lies beyond the end, a file is cut at the first of them that is near enough to the
end, or at the end. -/
theorem cutPlace?_eq {size : Nat} (kept : Nat) {offsets : List Nat}
    (inside : ∀ n ∈ offsets, n ≤ size) :
    cutPlace? size kept offsets =
      some ((offsets.find? fun n => size - n ≤ kept).getD size) := by
  induction offsets with
  | nil => rfl
  | cons n rest ih =>
    obtain ⟨within, inside⟩ := List.forall_mem_cons.mp inside
    rw [cutPlace?, if_neg (Nat.not_lt_of_le within), List.find?_cons]
    by_cases near : size - n ≤ kept
    · rw [if_pos near, decide_eq_true near, Option.getD_some]
    · rw [if_neg near, decide_eq_false near, ih inside]

/-- What an insertion comes to for a store alone with a file of any bytes. -/
structure Trims (s : Segment) (disk : Disk) (d : Document)
    (answer : Except StoreError Unit × Segment × Disk) : Prop where
  size_eq : s.size = (s.bytes disk).length
  /-- No frame lies beyond the end that the store reckons with when it looks for a place to cut. -/
  inside : ∀ n ∈ Frame.starts (s.bytes disk ++ Frame.encode d),
    n ≤ s.size + (Frame.encode d).length
  refuses : ¬d.Fits → answer = (.error (.serialization tooLargeText), s, disk)
  accepts : d.Fits → answer.1 = .ok ()
  leaves : d.Fits →
    let whole := s.bytes disk ++ Frame.encode d
    let place := Frame.leftFrom s.maxSize whole
    answer.2.1.bytes answer.2.2 = whole.drop place ∧
      answer.2.1.scan answer.2.2 = .ok (Frame.foundFrom place whole) ∧
      answer.2.1.documents answer.2.2 =
        .ok (((Frame.scan whole).filter fun p => place ≤ p.1).map (·.2))
  size_eq_after : answer.2.1.size = (answer.2.1.bytes answer.2.2).length
  bound : d.Fits → answer.2.1.size ≤ s.maxSize

namespace Sole

variable {s : Segment} {disk : Disk}

/-- All that is found in the file lies in front of its end. -/
theorem starts_le (h : s.Sole disk) (d : Document) :
    ∀ n ∈ Frame.starts (s.bytes disk ++ Frame.encode d), n ≤ s.size + (Frame.encode d).length := by
  intro n hn
  rw [h.size_eq, ← List.length_append]
  exact Nat.le_of_lt (Frame.lt_of_mem_scan hn)

/-- The file is cut where it is to be cut. -/
theorem cutPlace?_cutOf (h : s.Sole disk) (d : Document) :
    cutPlace? (s.size + (Frame.encode d).length) s.keptSize
        ((Frame.scan (s.bytes disk ++ Frame.encode d)).map (·.1)) =
      some (Frame.cutOf s.keptSize (s.bytes disk ++ Frame.encode d)) := by
  have place := cutPlace?_eq s.keptSize (h.starts_le d)
  rwa [h.size_eq, ← List.length_append] at place ⊢

/-- A document that fits is accepted, and what is left of the file with its frame is told by a scan
of that. -/
theorem bytes_insert (h : s.Sole disk) {d : Document} (fits : d.Fits) :
    let whole := s.bytes disk ++ Frame.encode d
    (s.insert d disk).1 = .ok () ∧
      (s.insert d disk).2.1.bytes (s.insert d disk).2.2 =
        whole.drop (Frame.leftFrom s.maxSize whole) := by
  intro whole
  have length : s.size + (Frame.encode d).length = whole.length := by
    rw [h.size_eq, ← List.length_append]
  have inserted := h.inPlace.inserted d
  have found := h.cutPlace?_cutOf d
  generalize s.insert d disk = answer at inserted ⊢
  cases inserted with
  | refused long => exact absurd fits long
  | stuck _ _ none => cases found.symm.trans none
  | appended _ room =>
    rw [Overflows, length, Nat.not_lt] at room
    rw [Frame.leftFrom, if_pos room, List.drop_zero]
    exact ⟨rfl, h.inPlace.bytes_append _⟩
  | cut _ overflows place =>
    cases found.symm.trans place
    rw [Overflows, length] at overflows
    rw [Frame.leftFrom, if_neg (Nat.not_le_of_lt overflows)]
    exact ⟨rfl, (h.inPlace.append _).bytes_withLeft _⟩

/-- The place from which on the file is left is reached over whole frames, or is the end. -/
theorem scan_leftFrom (h : s.Sole disk) (d : Document) :
    let whole := s.bytes disk ++ Frame.encode d
    Frame.scan (whole.drop (Frame.leftFrom s.maxSize whole)) =
      Frame.foundFrom (Frame.leftFrom s.maxSize whole) whole := by
  intro whole
  rw [Frame.leftFrom]
  split
  · exact Frame.Passes.stay.scan_drop
  · obtain ⟨place, found, there⟩ := h.exists_cutPlace d
    rw [h.cutPlace?_cutOf d] at found
    cases found
    rcases there with ⟨before, here⟩ | ends
    · exact here.scan_drop
    · rw [show Frame.cutOf (s.maxSize / 4 * 3) whole = whole.length from ends]
      exact Frame.scan_drop_length whole

/-- What is left of a file is not longer than its bound. -/
theorem length_leftFrom_le (maxSize : Nat) (whole : List UInt8) :
    (whole.drop (Frame.leftFrom maxSize whole)).length ≤ maxSize := by
  rw [Frame.leftFrom]
  split
  · next room => rwa [List.drop_zero]
  · rw [List.length_drop, Frame.cutOf]
    cases near : (Frame.starts whole).find? fun n => whole.length - n ≤ maxSize / 4 * 3 with
    | none =>
      rw [Option.getD_none, Nat.sub_self]
      exact Nat.zero_le _
    | some n =>
      have short := List.find?_some near
      rw [decide_eq_true_iff] at short
      rw [Option.getD_some]
      omega

theorem trims (h : s.Sole disk) (d : Document) : s.Trims disk d (s.insert d disk) where
  size_eq := h.size_eq
  inside := h.starts_le d
  refuses := insert_of_not_fits s disk
  accepts fits := (h.bytes_insert fits).1
  leaves fits := by
    have left := (h.bytes_insert fits).2
    have scanned := (h.insert d).inPlace.scan_eq
    rw [left, h.scan_leftFrom d] at scanned
    refine ⟨left, scanned, ?_⟩
    rw [documents, scanned, ← Frame.map_snd_foundFrom]
    rfl
  size_eq_after := (h.insert d).size_eq
  bound fits := by
    rw [(h.insert d).size_eq, (h.bytes_insert fits).2]
    exact length_leftFrom_le _ _

/-- The store stays alone with its file, and keeps its bound, however many documents are
inserted. -/
theorem run {h : History} (sole : h.store.Sole h.disk) (docs : List Document) :
    (h.run (docs.map .insert)).store.Sole (h.run (docs.map .insert)).disk ∧
      (h.run (docs.map .insert)).store.maxSize = h.store.maxSize := by
  induction docs generalizing h with
  | nil => exact ⟨sole, rfl⟩
  | cons d rest ih =>
    have store : (h.next (.insert d)).store = (h.store.insert d h.disk).2.1 := by
      simp only [History.next]
    have disk : (h.next (.insert d)).disk = (h.store.insert d h.disk).2.2 := by
      simp only [History.next]
    have still : (h.next (.insert d)).store.Sole (h.next (.insert d)).disk := by
      rw [store, disk]
      exact sole.insert d
    obtain ⟨later, bound⟩ := ih still
    rw [store, (sole.inPlace.inserted d).maxSize_eq] at bound
    rw [List.map_cons, History.run_cons]
    exact ⟨later, bound⟩

end Sole

/-- A store is opened on a file of any bytes, and any documents are inserted. The next one is refused
if it fits into no frame, and that changes nothing. Otherwise the file is left with its frame, if it
is not longer than its bound then; or else it is cut at the first document that a scan finds with at
most three quarters of the bound from there on, and nothing is left if there is none. What is found
afterwards is what the scan found from that place on, nearer to the front by what was cut off. The
store always knows how long the file is, and that is within the bound. -/
theorem insertions_trim {path : Path} {maxSize : Nat} {s : Segment} {disk disk' : Disk}
    (opened : openAt path maxSize disk = (.ok s, disk')) (docs : List Document) :
    let h := History.run ⟨s, disk', []⟩ (docs.map .insert)
    h.store.maxSize = maxSize ∧ ∀ d, h.store.Trims h.disk d (h.store.insert d h.disk) := by
  intro h
  have start : s.Sole disk' := .of_openAt opened
  obtain ⟨sole, bound⟩ := Sole.run (h := ⟨s, disk', []⟩) start docs
  exact ⟨bound.trans (inPlace_of_openAt opened).2.2.1, sole.trims⟩

/-- In front of the second document stand an empty frame, the first document and a damaged frame;
behind it, four bytes that tell a length of 200. The frame that is inserted is taken for the payload
of those, so that a scan does not find it. It leads to a cut at the second document, which is still
found afterwards. -/
theorem insertions_trim_before_torn_end :
    let t : Instant := ⟨0, 0, by decide, by decide, by decide, by decide⟩
    let bytes := [0, 0, 0, 0, 0, 0, 0, 0] ++ Frame.encode ⟨t, 1, .null⟩ ++
      [3, 0, 0, 0, 0, 0, 0, 0, 1, 2, 3] ++ Frame.encode ⟨t, 2, .null⟩ ++ [200, 0, 0, 0]
    ∃ s disk', openAt ⟨"traces"⟩ 180 (.ofFile bytes) = (.ok s, disk') ∧
      let answer := s.insert ⟨t, 3, .null⟩ disk'
      s.Trims disk' ⟨t, 3, .null⟩ answer ∧
        answer.2.1.bytes answer.2.2 =
          Frame.encode ⟨t, 2, .null⟩ ++ [200, 0, 0, 0] ++ Frame.encode ⟨t, 3, .null⟩ ∧
        answer.2.1.documents answer.2.2 = .ok [⟨t, 2, .null⟩] := by
  intro t bytes
  obtain ⟨s, disk', opened, same⟩ := openAt_of_file (Disk.file_ofFile bytes) 180
  have file : s.bytes disk' = bytes := same
  have trimmed := insertions_trim opened []
  rw [List.map_nil, History.run, List.foldl_nil] at trimmed
  obtain ⟨bound, trims⟩ := trimmed
  have kept := trims ⟨t, 3, .null⟩
  dsimp only at bound kept
  have fits : (⟨t, 3, .null⟩ : Document).Fits := by decide +kernel
  obtain ⟨left, -, found⟩ := kept.leaves fits
  rw [file, bound] at left found
  refine ⟨s, disk', opened, kept, ?_, ?_⟩
  · rw [left]
    decide +kernel
  · rw [found]
    decide +kernel

end Segment

end TraceJournal
