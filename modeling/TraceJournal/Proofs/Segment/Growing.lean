import TraceJournal.Proofs.Segment.Readership
import TraceJournal.Proofs.Segment.Whole

/-!
# Files that grow under a cursor

A file that comes to be what it is byte by byte, whatever stands in it, and a cursor that is asked
while only its first bytes are there. What it has answered is at any time the beginning of what a
scan of the whole file finds from the cursor's time on: a frame of which a part is missing is not
answered and not passed over, and what more bytes bring comes behind all that was answered before.
-/

namespace TraceJournal

/-- The disk on which a file has these bytes. -/
def Disk.withFile (disk : Disk) (file : Nat) (bytes : List UInt8) : Disk :=
  { disk with volume := disk.volume.write file bytes }

/-- The documents of a file that are not before a time. -/
def Frame.documentsFrom (source : Instant) (file : List UInt8) : List Document :=
  (documents file).filter fun d => source ≤ d.time

namespace Reading

/-- A cursor that was just opened on a file that will come to be `whole`. -/
def fresh (cursor : SegmentCursor) (source : Instant) (whole : List UInt8) : Reading :=
  ⟨cursor, source, Frame.documents whole, [], false⟩

/-- The cursor after it was asked again and again, while the first bytes of a file were there, so
many of them each time. -/
def watch (disk : Disk) (file : Nat) (whole : List UInt8) (r : Reading) (lengths : List Nat) :
    Reading :=
  lengths.foldl (fun r n => r.ask (disk.withFile file (whole.take n))) r

/-- What a cursor has answered, and will answer, that was asked while at most the first `n` bytes of
a file were there. -/
structure Tails (r : Reading) (source : Instant) (disk : Disk) (file : Nat) (whole : List UInt8)
    (n : Nat) : Prop where
  /-- It is the beginning of what a scan finds of the first bytes, and so of the whole file. -/
  found : r.found <+: Frame.documentsFrom source (whole.take n)
  found_whole : r.found <+: Frame.documentsFrom source whole
  /-- Every answer stands in the first bytes as a whole frame. -/
  stands : ∀ d ∈ r.found, ∃ place next, Frame.read whole place = .complete d next ∧ next ≤ n
  /-- With more bytes, the cursor answers the next of the documents that a scan of these finds. -/
  next : ∀ m, n ≤ m → (r.cursor.tryNext (disk.withFile file (whole.take m))).1 =
    .ok (Frame.documentsFrom source (whole.take m))[r.found.length]?
  /-- With all bytes, it answers nothing exactly if it has answered all that a scan finds. -/
  nothing_iff : (r.cursor.tryNext (disk.withFile file whole)).1 = .ok none ↔
    r.found = Frame.documentsFrom source whole
  /-- Asked again and again then, it answers the rest one after the other. -/
  rest : ∀ k, (r.watch disk file whole (List.replicate k whole.length)).found =
    (Frame.documentsFrom source whole).take (r.found.length + k)

end Reading

/-! ## What every poll keeps -/

namespace Segment.InPlace

variable {s : Segment} {disk : Disk}

theorem withFile (h : s.InPlace disk) (bytes : List UInt8) :
    s.InPlace (disk.withFile s.file bytes) :=
  ⟨(Volume.file_write _ _ _ _).trans h.file_path⟩

theorem bytes_withFile (h : s.InPlace disk) (bytes : List UInt8) :
    (disk.withFile s.file bytes).volume.bytes s.file = bytes :=
  Volume.bytes_write _ h.file_lt bytes

theorem documents_withFile (h : s.InPlace disk) (bytes : List UInt8) :
    s.documents (disk.withFile s.file bytes) = .ok (Frame.documents bytes) := by
  have all := (h.withFile bytes).documents_eq
  rwa [Segment.bytes, h.bytes_withFile] at all

end Segment.InPlace

namespace Reading

/-- Of the present bytes of the file the cursor has seen some documents, and has answered those of
them that are not before its time. -/
structure Abreast (r : Reading) (source : Instant) (s : Segment) (disk : Disk)
    (present : List UInt8) (seen : List Document) : Prop where
  source_eq : r.cursor.source = source
  file_eq : r.cursor.file = s.file
  follows : r.cursor.Follows s (disk.withFile s.file present) seen
  found_eq : r.found = seen.filter fun d => source ≤ d.time

namespace Abreast

variable {r : Reading} {source : Instant} {s : Segment} {disk : Disk} {present : List UInt8}
  {seen : List Document}

theorem fresh (placed : s.InPlace disk) {c : SegmentCursor}
    (opened : s.tailFrom source disk = .ok c) (whole : List UInt8) :
    (Reading.fresh c source whole).Abreast source s disk [] [] := by
  rw [placed.tailFrom_eq] at opened
  cases opened
  exact ⟨rfl, rfl, ⟨(placed.withFile []).file_path, rfl, List.nil_prefix, [], .stay, rfl⟩, rfl⟩

/-- More bytes come behind what was seen. -/
theorem grow (h : r.Abreast source s disk present seen) (placed : s.InPlace disk)
    {longer : List UInt8} (more : present <+: longer) : r.Abreast source s disk longer seen := by
  obtain ⟨behind, rfl⟩ := more
  obtain ⟨passed, passes, seen_eq⟩ := h.follows.passes
  have shows := h.follows.shows
  rw [h.file_eq, placed.bytes_withFile] at passes shows
  refine ⟨h.source_eq, h.file_eq, ⟨?_, h.follows.uncut, ?_, passed, ?_, seen_eq⟩, h.found_eq⟩
  · rw [h.file_eq]
    exact (placed.withFile _).file_path
  · rw [h.file_eq, placed.bytes_withFile]
    exact shows.append behind
  · rw [h.file_eq, placed.bytes_withFile]
    exact passes.append behind

/-- Asked, the cursor answers the next of the documents that there are. -/
theorem ask (h : r.Abreast source s disk present seen) (placed : s.InPlace disk) :
    let next? := (Frame.documentsFrom source present)[r.found.length]?
    (r.cursor.tryNext (disk.withFile s.file present)).1 = .ok next? ∧
      (r.ask (disk.withFile s.file present)).found = r.found ++ next?.toList ∧
      ∃ seen', (r.ask (disk.withFile s.file present)).Abreast source s disk present seen' := by
  intro next?
  have moved := r.cursor.exists_tryNext (disk.withFile s.file present)
  obtain ⟨more, c, answer, after, new⟩ :=
    h.follows.answers (placed.documents_withFile present) h.source_eq
  rw [← h.found_eq] at answer new
  rw [answer] at moved
  obtain ⟨w, place, same⟩ := moved
  rw [ask_of_ok answer, answer]
  refine ⟨rfl, rfl, seen ++ more, ?_, ?_, after, ?_⟩
  · exact (congrArg SegmentCursor.source same).trans h.source_eq
  · exact (congrArg SegmentCursor.file same).trans h.file_eq
  · rw [List.filter_append, new, ← h.found_eq]

/-- Asked while the file grows, the cursor keeps up with it. -/
theorem watch (h : r.Abreast source s disk present seen) (placed : s.InPlace disk)
    {whole : List UInt8} {lengths : List Nat} {n : Nat} (growing : lengths.Pairwise (· ≤ ·))
    (last : ∀ m ∈ lengths, m ≤ n) (here : ∀ m ∈ lengths, present <+: whole.take m)
    (there : present <+: whole.take n) :
    ∃ seen', (r.watch disk s.file whole lengths).Abreast source s disk (whole.take n) seen' := by
  induction lengths generalizing r present seen with
  | nil => exact ⟨seen, h.grow placed there⟩
  | cons m rest ih =>
    obtain ⟨first, later⟩ := List.pairwise_cons.mp growing
    obtain ⟨-, -, seen', abreast⟩ := (h.grow placed (here m List.mem_cons_self)).ask placed
    exact ih abreast later (fun k hk => last k (List.mem_cons_of_mem m hk))
      (fun k hk => List.take_prefix_take_left (first k hk))
      (List.take_prefix_take_left (last m List.mem_cons_self))

/-- What was answered comes first in a scan. -/
theorem found_prefix (h : r.Abreast source s disk present seen) (placed : s.InPlace disk) :
    r.found <+: Frame.documentsFrom source present := by
  have all := Except.ok.inj ((placed.documents_withFile present).symm.trans h.follows.documents)
  rw [h.found_eq, Frame.documentsFrom, all]
  exact (List.prefix_append _ _).filter _

/-- Every answer stands in the file as a whole frame. -/
theorem exists_read (h : r.Abreast source s disk present seen) (placed : s.InPlace disk)
    {d : Document} (answered : d ∈ r.found) :
    ∃ place next, Frame.read present place = .complete d next := by
  obtain ⟨passed, passes, rfl⟩ := h.follows.passes
  rw [h.file_eq, placed.bytes_withFile] at passes
  rw [h.found_eq] at answered
  obtain ⟨p, member, rfl⟩ := List.mem_map.mp (List.mem_filter.mp answered).1
  exact ⟨p.1, passes.exists_read_of_mem member⟩

/-- Asked again and again when all bytes are there, the cursor answers one document after the other
and then nothing. -/
theorem rest {whole : List UInt8} (h : r.Abreast source s disk whole seen)
    (placed : s.InPlace disk) (k : Nat) :
    (r.watch disk s.file whole (List.replicate k whole.length)).found =
      (Frame.documentsFrom source whole).take (r.found.length + k) := by
  induction k generalizing r seen with
  | zero => exact List.prefix_iff_eq_take.mp (h.found_prefix placed)
  | succ k ih =>
    obtain ⟨-, found, seen', abreast⟩ := h.ask placed
    have later := ih abreast
    rw [List.replicate_succ, Reading.watch, List.foldl_cons, List.take_length, ← Reading.watch,
      later, found]
    cases next : (Frame.documentsFrom source whole)[r.found.length]? with
    | none =>
      have short := List.getElem?_eq_none_iff.mp next
      rw [Option.toList_none, List.append_nil, List.take_of_length_le (by omega),
        List.take_of_length_le (by omega)]
    | some d =>
      congr 1
      simp only [Option.toList_some, List.length_append, List.length_singleton]
      omega

/-- What holds of a cursor that keeps up with its file. -/
theorem tails {whole : List UInt8} {n : Nat} (h : r.Abreast source s disk (whole.take n) seen)
    (placed : s.InPlace disk) : r.Tails source disk s.file whole n := by
  have full := h.grow placed (List.take_prefix n whole)
  have answers := (full.ask placed).1
  have found := full.found_prefix placed
  refine ⟨h.found_prefix placed, found, ?_, ?_, ?_, full.rest placed⟩
  · intro d answered
    obtain ⟨place, next, stands⟩ := h.exists_read placed answered
    have within := (Frame.progress_of_complete stands).2
    have whole_read := Frame.read_append_of_complete stands (whole.drop n)
    rw [List.take_append_drop] at whole_read
    exact ⟨place, next, whole_read, within.trans (List.length_take_le n whole)⟩
  · intro m le
    exact ((h.grow placed (List.take_prefix_take_left le)).ask placed).1
  · rw [answers]
    constructor
    · intro nothing
      have ends := List.getElem?_eq_none_iff.mp (Except.ok.inj nothing)
      exact found.eq_of_length_le ends
    · intro all
      rw [all, List.getElem?_eq_none (Nat.le_refl _)]

end Abreast

end Reading

/-- A cursor is opened at the start of a file of which nothing is known, and asked while the file
comes to be `whole`, at the given lengths. What it has answered then is the beginning of what a scan
of the whole file finds from the cursor's time on, each document from a whole frame and each once;
asked again when the file is whole, it answers the rest of that, and nothing exactly when it has
answered all. -/
theorem Segment.tails_growing_file {s : Segment} {disk : Disk} {source : Instant}
    {c : SegmentCursor} {lengths : List Nat} {n : Nat} (placed : s.InPlace disk)
    (opened : s.tailFrom source disk = .ok c) (growing : lengths.Pairwise (· ≤ ·))
    (last : ∀ m ∈ lengths, m ≤ n) (whole : List UInt8) :
    s.documents (disk.withFile s.file whole) = .ok (Frame.documents whole) ∧
      ((Reading.fresh c source whole).watch disk s.file whole lengths).Tails source disk s.file
        whole n := by
  have start := Reading.Abreast.fresh placed opened whole
  obtain ⟨seen, abreast⟩ := start.watch placed growing last (fun _ _ => List.nil_prefix)
    List.nil_prefix
  exact ⟨placed.documents_withFile whole, abreast.tails placed⟩

/-- Behind an empty frame and a damaged one the documents are found, each at the first poll at which
all of its frame is there. -/
theorem Segment.tails_growing_file_of_damaged :
    let t : Instant := ⟨0, 0, by decide, by decide, by decide, by decide⟩
    let whole := [0, 0, 0, 0, 0, 0, 0, 0] ++ Frame.encode ⟨t, 1, .null⟩ ++
      [3, 0, 0, 0, 0, 0, 0, 0, 1, 2, 3] ++ Frame.encode ⟨t, 2, .null⟩
    let s : Segment := ⟨⟨"traces"⟩, 0, 0, 100, 0⟩
    let c : SegmentCursor := ⟨0, .atPlace 0, 0, t, 0, 0⟩
    let polls := [4, 40, 70, 75, 100]
    s.InPlace (.ofFile []) ∧ s.tailFrom t (.ofFile []) = .ok c ∧ polls.Pairwise (· ≤ ·) ∧
      (∀ m ∈ polls, m ≤ 100) ∧
      let r := (Reading.fresh c t whole).watch (.ofFile []) s.file whole polls
      s.documents ((Disk.ofFile []).withFile s.file whole) = .ok (Frame.documents whole) ∧
        r.Tails t (.ofFile []) s.file whole 100 ∧ r.found = [⟨t, 1, .null⟩] ∧
        Frame.documents whole = [⟨t, 1, .null⟩, ⟨t, 2, .null⟩] := by
  intro t whole s c polls
  have placed : s.InPlace (.ofFile []) := ⟨Disk.file_ofFile []⟩
  have opened : s.tailFrom t (.ofFile []) = .ok c := placed.tailFrom_eq t
  have growing : polls.Pairwise (· ≤ ·) := by decide
  have last : ∀ m ∈ polls, m ≤ 100 := by decide
  obtain ⟨scanned, tails⟩ := tails_growing_file placed opened growing last whole
  refine ⟨placed, opened, growing, last, scanned, tails, ?_, ?_⟩
  · decide +kernel
  · decide +kernel

end TraceJournal
