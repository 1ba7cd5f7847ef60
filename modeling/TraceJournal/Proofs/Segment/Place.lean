import TraceJournal.Proofs.Files.Opening
import TraceJournal.Proofs.Segment.Contents
import TraceJournal.Store.Segment.Basic

/-!
# Segment stores in place

A segment store is in place as long as its path leads to the file that it appends to. Then all that
it answers is told by the bytes of that file, and inserting a document leaves it in place.
-/

namespace TraceJournal

namespace Disk

/-- A disk with a single file, which stands under the path `traces` and holds some bytes. -/
def ofFile (bytes : List UInt8) : Disk :=
  ⟨(Volume.empty.addFile ⟨0, "traces"⟩).2.write 0 bytes, []⟩

theorem file_ofFile (bytes : List UInt8) : (ofFile bytes).volume.file ⟨"traces"⟩ = .ok 0 := by
  have usable : Path.check ⟨"traces"⟩ = .ok () := by
    have printable : "traces".contains '\x00' = false := by simp
    simp only [Path.check, printable, Bool.false_eq_true, if_false]
    rw [if_neg (by decide), if_neg (by decide)]
  have way : Path.way ⟨"traces"⟩ = [] := by decide +kernel
  have named : (Volume.empty.addFile ⟨0, "traces"⟩).2.named ⟨0, "traces"⟩ = .ok (.file 0) :=
    Volume.named_addFile rfl
  have added : (Volume.empty.addFile ⟨0, "traces"⟩).2.file ⟨"traces"⟩ = .ok 0 := by
    refine Volume.file_eq_ok_iff.mpr ⟨usable, [], "traces", ?_, by decide +kernel, named, ?_⟩
    · rw [way]
      rfl
    · decide +kernel
  exact (Volume.file_write _ 0 bytes _).trans added

end Disk

namespace Segment

/-- The path of the store leads to the file that the store appends to. -/
structure InPlace (s : Segment) (disk : Disk) : Prop where
  file_path : disk.volume.file s.path = .ok s.file

/-- The bytes of the file that the store appends to. -/
def bytes (s : Segment) (disk : Disk) : List UInt8 := disk.volume.bytes s.file

namespace InPlace

variable {s : Segment} {disk : Disk}

theorem file_lt (h : s.InPlace disk) : s.file < disk.volume.contents.length :=
  Volume.lt_of_file h.file_path

theorem scan_eq (h : s.InPlace disk) : s.scan disk = .ok (Frame.scan (s.bytes disk)) := by
  simp only [scan, Volume.read, h.file_path]
  rfl

theorem documents_eq (h : s.InPlace disk) :
    s.documents disk = .ok (Frame.documents (s.bytes disk)) := by
  simp only [documents, h.scan_eq]
  rfl

theorem existsFrom_eq (h : s.InPlace disk) (source : Instant) :
    s.existsFrom source disk =
      .ok ((Frame.documents (s.bytes disk)).any fun d => source ≤ d.time) := by
  simp only [existsFrom, h.documents_eq]
  rfl

theorem lastSerial_eq (h : s.InPlace disk) :
    s.lastSerial disk = .ok (((Frame.documents (s.bytes disk)).map Document.serial).max?) := by
  simp only [lastSerial, h.documents_eq]
  rfl

theorem tailFrom_eq (h : s.InPlace disk) (source : Instant) :
    s.tailFrom source disk =
      .ok { file := s.file, window := .atPlace 0, offset := 0, source, number := s.number
            opened := disk.cutsOf s.number } := by
  simp only [tailFrom, h.file_path]

/-! ## Appending and cutting -/

theorem append (h : s.InPlace disk) (more : List UInt8) :
    (s.append more disk).1.InPlace (s.append more disk).2 where
  file_path := (Volume.file_write _ _ _ _).trans h.file_path

theorem bytes_append (h : s.InPlace disk) (more : List UInt8) :
    (s.append more disk).1.bytes (s.append more disk).2 = s.bytes disk ++ more :=
  Volume.bytes_write _ h.file_lt _

end InPlace

/-- A document that fits into no frame is refused. -/
theorem insert_of_not_fits (s : Segment) (disk : Disk) {d : Document} (long : ¬d.Fits) :
    s.insert d disk = (.error (.serialization tooLargeText), s, disk) := by
  rw [Segment.insert, if_pos (Nat.lt_of_not_le long)]

/-- A document that fits, and for which there is room, is appended. -/
theorem insert_of_room {s : Segment} (disk : Disk) {d : Document} (fits : d.Fits)
    (room : (s.append (Frame.encode d) disk).1.size ≤ s.maxSize) :
    s.insert d disk = (.ok (), s.append (Frame.encode d) disk) := by
  have uncut : (s.append (Frame.encode d) disk).1.size ≤
      (s.append (Frame.encode d) disk).1.maxSize := room
  unfold Segment.insert
  rw [if_neg (Nat.not_lt_of_le fits)]
  simp only [if_pos uncut]

namespace InPlace

variable {s : Segment} {disk : Disk}

/-- A cut leaves the bytes from the cut place on. -/
theorem compact_of_place (h : s.InPlace disk) {place : Nat}
    (hp : cutPlace? s.size s.keptSize ((Frame.scan (s.bytes disk)).map (·.1)) = some place) :
    s.compact disk =
      (.ok { s with size := ((s.bytes disk).drop place).length },
        { volume := disk.volume.write s.file ((s.bytes disk).drop place)
          cuts := disk.cuts.set s.number (disk.cutsOf s.number + 1) }) := by
  rw [bytes] at hp
  simp only [Segment.compact, h.file_path, hp, bytes]

/-- There is no place to be cut at only if a frame lies beyond the end that the store knows. -/
theorem compact_of_none (h : s.InPlace disk)
    (hp : cutPlace? s.size s.keptSize ((Frame.scan (s.bytes disk)).map (·.1)) = none) :
    s.compact disk = (.error .frameBeyondEnd, disk) := by
  rw [bytes] at hp
  simp only [Segment.compact, h.file_path, hp]

/-- Whatever becomes of a document, the store stays in place. -/
theorem insert (h : s.InPlace disk) (d : Document) :
    (s.insert d disk).2.1.InPlace (s.insert d disk).2.2 := by
  unfold Segment.insert
  split
  · exact h
  · have h' := h.append (Frame.encode d)
    simp only
    split
    · exact h'
    · cases hp : cutPlace? (s.append (Frame.encode d) disk).1.size
        (s.append (Frame.encode d) disk).1.keptSize
        ((Frame.scan ((s.append (Frame.encode d) disk).1.bytes
          (s.append (Frame.encode d) disk).2)).map (·.1)) with
      | none =>
        rw [h'.compact_of_none hp]
        exact h'
      | some place =>
        rw [h'.compact_of_place hp]
        exact ⟨(Volume.file_write _ _ _ _).trans h'.file_path⟩

/-! ## Opening -/

/-- Opening a store again finds the same file and changes nothing of it. -/
theorem openAt_eq (h : s.InPlace disk) (maxSize : Nat) :
    openAt s.path maxSize disk =
      (.ok { s with maxSize, size := (s.bytes disk).length, number := disk.cuts.length },
        { disk with cuts := disk.cuts ++ [0] }) := by
  unfold openAt
  rw [Volume.createDirectories_of_file h.file_path]
  simp only [Volume.openOrCreate_of_file h.file_path]
  rfl

end InPlace

/-- A store is opened on a file that is there with everything that stands in it. -/
theorem openAt_of_file {path : Path} {file : Nat} {disk : Disk}
    (h : disk.volume.file path = .ok file) (maxSize : Nat) :
    ∃ s disk', openAt path maxSize disk = (.ok s, disk') ∧
      s.bytes disk' = disk.volume.bytes file := by
  have placed : InPlace ⟨path, file, 0, 0, 0⟩ disk := ⟨h⟩
  exact ⟨_, _, placed.openAt_eq maxSize, rfl⟩

/-- A store that was just opened is in place, and knows the end of its file. -/
theorem inPlace_of_openAt {path : Path} {maxSize : Nat} {s : Segment} {disk disk' : Disk}
    (h : openAt path maxSize disk = (.ok s, disk')) :
    s.InPlace disk' ∧ s.path = path ∧ s.maxSize = maxSize ∧ s.size = (s.bytes disk').length := by
  unfold openAt at h
  cases hd : disk.volume.createDirectories path.directory with
  | mk made volume =>
    rw [hd] at h
    cases made with
    | error e => cases h
    | ok =>
      cases ho : volume.openOrCreate path with
      | error e =>
        simp only [ho] at h
        cases h
      | ok opened =>
        obtain ⟨file, volume'⟩ := opened
        simp only [ho] at h
        cases h
        exact ⟨⟨Volume.file_of_openOrCreate ho⟩, rfl, rfl, rfl⟩

end Segment

end TraceJournal
