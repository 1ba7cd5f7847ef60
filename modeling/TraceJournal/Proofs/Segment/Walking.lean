import Mathlib.Logic.Relation
import TraceJournal.Proofs.Segment.Place
import TraceJournal.Proofs.Segment.Words

/-!
# Walking over a file of any bytes

The loops of a scan and of a cursor, round after round, with all numbers checked and without a bound
on the rounds. On a file shorter than `2 ^ 63` bytes they come to an end whatever bytes stand in it,
with what scans and cursors answer: every round that does not end them moves on by the eight bytes of
a header at least and stays in the file. What they find are whole frames, one behind the other.
-/

namespace TraceJournal

/-! ## Places that are reached -/

namespace Frame

variable {file : List UInt8}

/-- One round: the frame at a place is read through a window, with all numbers checked, and can be
passed over. -/
def Round (file : List UInt8) (here there : Nat × Window) : Prop :=
  ∃ frame, here.2.frame? file here.1 = some (frame, there.2) ∧ frame.next? = some there.1

/-- Round after round. -/
abbrev Reaches (file : List UInt8) : Nat × Window → Nat × Window → Prop :=
  Relation.ReflTransGen (Round file)

/-- All places that are reached lie in the file, no check fails there, and a round leads on by a
header at least, and not beyond the end. -/
structure Safe (file : List UInt8) (start : Nat × Window) : Prop where
  within : ∀ here, Reaches file start here → here.1 ≤ file.length
  checked : ∀ here, Reaches file start here → (here.2.frame? file here.1).isSome
  progress : ∀ here there, Reaches file start here → Round file here there →
    here.1 + headerSize ≤ there.1 ∧ there.1 ≤ file.length

/-- What a round keeps. -/
theorem Round.keeps {here there : Nat × Window} (h : Round file here there)
    (short : file.length < Word.signedLimit) (window : here.2.Short)
    (within : here.1 ≤ file.length) :
    here.1 + headerSize ≤ there.1 ∧ there.1 ≤ file.length ∧ there.2.Short := by
  obtain ⟨frame, read, next⟩ := h
  have rounded := window.rounded_of_frame? short within read
  obtain ⟨moved, stays⟩ := rounded.progress _ next
  exact ⟨moved, stays, rounded.short⟩

/-- What any number of rounds keep. -/
theorem within_of_reaches {start here : Nat × Window} (h : Reaches file start here)
    (short : file.length < Word.signedLimit) (window : start.2.Short)
    (within : start.1 ≤ file.length) : here.1 ≤ file.length ∧ here.2.Short := by
  induction h with
  | refl => exact ⟨within, window⟩
  | tail _ round ih => exact (round.keeps short ih.2 ih.1).2

theorem safe_of_short {start : Nat × Window} (short : file.length < Word.signedLimit)
    (window : start.2.Short) (within : start.1 ≤ file.length) : Safe file start where
  within here reached := (within_of_reaches reached short window within).1
  checked here reached := by
    obtain ⟨inside, window'⟩ := within_of_reaches reached short window within
    rw [window'.frame?_eq short inside, Option.isSome_some]
  progress here there reached round := by
    obtain ⟨inside, window'⟩ := within_of_reaches reached short window within
    obtain ⟨moved, stays, -⟩ := round.keeps short window' inside
    exact ⟨moved, stays⟩

/-! ## Scans -/

/-- The loop of a scan from a place on, with the number of its rounds and what it finds. -/
inductive Scans (file : List UInt8) : Nat → Window → Nat → List (Nat × Document) → Prop where
  | stop {offset : Nat} {w w' : Window} :
    w.frame? file offset = some (incomplete, w') → Scans file offset w 1 []
  | document {offset next rounds : Nat} {w w' : Window} {d : Document}
      {found : List (Nat × Document)} :
    w.frame? file offset = some (complete d next, w') → Scans file next w' rounds found →
      Scans file offset w (rounds + 1) ((offset, d) :: found)
  | damaged {offset next rounds : Nat} {w w' : Window} {found : List (Nat × Document)} :
    w.frame? file offset = some (corrupt next, w') → Scans file next w' rounds found →
      Scans file offset w (rounds + 1) found

/-- The loop ends, and finds what a scan finds. -/
theorem exists_scans (short : file.length < Word.signedLimit) {offset : Nat} {w : Window}
    (shows : w.Shows file) (window : w.Short) (within : offset ≤ file.length) :
    ∃ rounds, Scans file offset w rounds (scanAt file offset) := by
  induction h : file.length - offset using Nat.strongRecOn generalizing offset w with
  | ind left ih =>
    have checked := window.frame?_eq short within
    have rounded := window.rounded short within
    obtain ⟨stands, shows'⟩ := rounded.of_shows shows
    generalize w.frame file offset = round at checked rounded stands shows'
    obtain ⟨frame, w'⟩ := round
    cases frame with
    | complete d next =>
      obtain ⟨moved, inside⟩ := rounded.progress next rfl
      rw [headerSize] at moved
      obtain ⟨rounds, scans⟩ := ih _ (by omega) shows' rounded.short inside rfl
      rw [scanAt_of_complete stands]
      exact ⟨rounds + 1, .document checked scans⟩
    | corrupt next =>
      obtain ⟨moved, inside⟩ := rounded.progress next rfl
      rw [headerSize] at moved
      obtain ⟨rounds, scans⟩ := ih _ (by omega) shows' rounded.short inside rfl
      rw [scanAt_of_corrupt stands]
      exact ⟨rounds + 1, .damaged checked scans⟩
    | incomplete =>
      rw [scanAt_of_incomplete stands]
      exact ⟨1, .stop checked⟩

/-- The loop finds nothing else, and every eight bytes make at most one round. -/
theorem Scans.eq_scanAt {offset rounds : Nat} {w : Window} {found : List (Nat × Document)}
    (h : Scans file offset w rounds found) (short : file.length < Word.signedLimit)
    (shows : w.Shows file) (window : w.Short) (within : offset ≤ file.length) :
    found = scanAt file offset ∧ headerSize * rounds ≤ file.length - offset + headerSize := by
  induction h with
  | stop read =>
    have rounded := window.rounded_of_frame? short within read
    exact ⟨(scanAt_of_incomplete (rounded.of_shows shows).1).symm, by omega⟩
  | document read _ ih =>
    have rounded := window.rounded_of_frame? short within read
    obtain ⟨stands, shows'⟩ := rounded.of_shows shows
    obtain ⟨moved, inside⟩ := rounded.progress _ rfl
    obtain ⟨all, few⟩ := ih shows' rounded.short inside
    rw [headerSize] at moved few ⊢
    exact ⟨by rw [scanAt_of_complete stands, all], by omega⟩
  | damaged read _ ih =>
    have rounded := window.rounded_of_frame? short within read
    obtain ⟨stands, shows'⟩ := rounded.of_shows shows
    obtain ⟨moved, inside⟩ := rounded.progress _ rfl
    obtain ⟨all, few⟩ := ih shows' rounded.short inside
    rw [headerSize] at moved few ⊢
    exact ⟨by rw [scanAt_of_corrupt stands, all], by omega⟩

/-- What holds of a scan of a file. -/
structure Walked (file : List UInt8) : Prop where
  safe : Safe file (0, .atPlace 0)
  /-- The loop ends with what a scan finds, and in no other way. -/
  ends_iff : ∀ found, (∃ rounds, headerSize * rounds ≤ file.length + headerSize ∧
    Scans file 0 (.atPlace 0) rounds found) ↔ found = scan file
  stands : ∀ p ∈ scan file, Stands file p.1 p.2
  apart : (scan file).Pairwise fun p q => endAt file p.1 ≤ q.1

theorem walked_of_short (short : file.length < Word.signedLimit) : Walked file := by
  have window : (Window.atPlace 0).Short := Window.short_atPlace (by decide)
  have shows : (Window.atPlace 0).Shows file := List.nil_prefix
  obtain ⟨stop, passes, -⟩ := exists_passes_scanAt file 0
  obtain ⟨-, stands, apart⟩ := passes.stands
  refine ⟨safe_of_short short window (Nat.zero_le _), ?_, fun p hp => (stands p hp).2.1, apart⟩
  intro found
  constructor
  · rintro ⟨rounds, -, scans⟩
    exact (scans.eq_scanAt short shows window (Nat.zero_le _)).1
  · rintro rfl
    obtain ⟨rounds, scans⟩ := exists_scans short shows window (Nat.zero_le _)
    exact ⟨rounds, (scans.eq_scanAt short shows window (Nat.zero_le _)).2, scans⟩

end Frame

/-! ## Cursors -/

namespace SegmentCursor

variable {file : List UInt8} {c c' : SegmentCursor} {disk : Disk}

/-- The loop of a cursor that is asked, with the number of its rounds, the answer and the cursor
then. -/
inductive Polls (file : List UInt8) :
    SegmentCursor → Nat → Option Document → SegmentCursor → Prop where
  | stop {c : SegmentCursor} {w : Window} :
    c.window.frame? file c.offset = some (.incomplete, w) →
      Polls file c 1 none { c with window := w }
  | found {c : SegmentCursor} {w : Window} {d : Document} {next : Nat} :
    c.window.frame? file c.offset = some (.complete d next, w) → c.source ≤ d.time →
      Polls file c 1 (some d) { c with window := w, offset := next }
  | early {c c' : SegmentCursor} {w : Window} {d : Document} {next rounds : Nat}
      {answer : Option Document} :
    c.window.frame? file c.offset = some (.complete d next, w) → ¬c.source ≤ d.time →
      Polls file { c with window := w, offset := next } rounds answer c' →
        Polls file c (rounds + 1) answer c'
  | damaged {c c' : SegmentCursor} {w : Window} {next rounds : Nat} {answer : Option Document} :
    c.window.frame? file c.offset = some (.corrupt next, w) →
      Polls file { c with window := w, offset := next } rounds answer c' →
        Polls file c (rounds + 1) answer c'

/-- The loop ends, with the answer of the cursor, as long as its window is short. The window need not
show the file. -/
theorem exists_polls (short : file.length < Word.signedLimit) {fuel : Nat} {c : SegmentCursor}
    (window : c.window.Short) (within : c.offset ≤ file.length)
    (enough : file.length - c.offset < fuel) :
    ∃ rounds, Polls file c rounds (c.readOn file fuel).1 (c.readOn file fuel).2 := by
  induction fuel generalizing c with
  | zero => omega
  | succ fuel ih =>
    have checked := window.frame?_eq short within
    have rounded := window.rounded short within
    unfold readOn
    generalize c.window.frame file c.offset = round at checked rounded
    obtain ⟨frame, w⟩ := round
    cases frame with
    | complete d next =>
      obtain ⟨moved, inside⟩ := rounded.progress next rfl
      rw [Frame.headerSize] at moved
      by_cases matching : c.source ≤ d.time
      · simp only [if_pos matching]
        exact ⟨1, .found checked matching⟩
      · simp only [if_neg matching]
        obtain ⟨rounds, polls⟩ := ih (c := { c with window := w, offset := next }) rounded.short
          inside (by simp only; omega)
        exact ⟨rounds + 1, .early checked matching polls⟩
    | corrupt next =>
      obtain ⟨moved, inside⟩ := rounded.progress next rfl
      rw [Frame.headerSize] at moved
      obtain ⟨rounds, polls⟩ := ih (c := { c with window := w, offset := next }) rounded.short
        inside (by simp only; omega)
      exact ⟨rounds + 1, .damaged checked polls⟩
    | incomplete => exact ⟨1, .stop checked⟩

/-- What the loop keeps, and how long it takes: every eight bytes make at most one round. -/
theorem Polls.keeps {rounds : Nat} {answer : Option Document} (h : Polls file c rounds answer c')
    (short : file.length < Word.signedLimit) (window : c.window.Short)
    (within : c.offset ≤ file.length) :
    c.offset ≤ c'.offset ∧ c'.offset ≤ file.length ∧ c'.window.Short ∧
      Frame.headerSize * rounds ≤ file.length - c.offset + Frame.headerSize := by
  induction h with
  | stop read =>
    have rounded := window.rounded_of_frame? short within read
    exact ⟨Nat.le_refl _, within, rounded.short, by omega⟩
  | found read _ =>
    have rounded := window.rounded_of_frame? short within read
    obtain ⟨moved, inside⟩ := rounded.progress _ rfl
    exact ⟨Nat.le_of_add_right_le moved, inside, rounded.short, by omega⟩
  | early read _ _ ih | damaged read _ ih =>
    have rounded := window.rounded_of_frame? short within read
    obtain ⟨moved, inside⟩ := rounded.progress _ rfl
    obtain ⟨later, stays, window', few⟩ := ih rounded.short inside
    simp only [Frame.headerSize] at *
    exact ⟨by omega, stays, window', by omega⟩

/-- The loop ends in no other way. -/
theorem Polls.readOn_eq {rounds : Nat} {answer : Option Document} (h : Polls file c rounds answer c')
    (short : file.length < Word.signedLimit) (window : c.window.Short)
    (within : c.offset ≤ file.length) {fuel : Nat} (enough : file.length - c.offset < fuel) :
    c.readOn file fuel = (answer, c') := by
  obtain ⟨fuel, rfl⟩ := Nat.exists_eq_succ_of_ne_zero (Nat.ne_zero_of_lt enough)
  induction h generalizing fuel with
  | stop read => simp only [readOn, (window.rounded_of_frame? short within read).read]
  | found read matching =>
    simp only [readOn, (window.rounded_of_frame? short within read).read, if_pos matching]
  | early read early polls ih =>
    have rounded := window.rounded_of_frame? short within read
    obtain ⟨moved, inside⟩ := rounded.progress _ rfl
    rw [Frame.headerSize] at moved
    simp only [readOn, rounded.read, if_neg early]
    obtain ⟨fuel, rfl⟩ := Nat.exists_eq_succ_of_ne_zero (n := fuel) (by omega)
    exact ih rounded.short inside fuel (by simp only; omega)
  | damaged read _ ih =>
    have rounded := window.rounded_of_frame? short within read
    obtain ⟨moved, inside⟩ := rounded.progress _ rfl
    rw [Frame.headerSize] at moved
    simp only [readOn, rounded.read]
    obtain ⟨fuel, rfl⟩ := Nat.exists_eq_succ_of_ne_zero (n := fuel) (by omega)
    exact ih rounded.short inside fuel (by simp only; omega)

/-! ## Cursors that are asked -/

/-- Nothing has been read yet through a cursor that was just opened. -/
theorem window_of_tailFrom {s : Segment} {source : Instant}
    (opened : s.tailFrom source disk = .ok c) : c.window = .atPlace 0 := by
  unfold Segment.tailFrom at opened
  split at opened
  · cases opened
    rfl
  · cases opened

/-- A cursor that was opened on a file, and then asked any number of times, while the file was short
but whatever stood in it at the time. -/
inductive Reached : SegmentCursor → Prop where
  | opened {s : Segment} {disk : Disk} {source : Instant} {c : SegmentCursor} :
    s.tailFrom source disk = .ok c → Reached c
  | asked {c : SegmentCursor} {disk : Disk} :
    Reached c → (disk.volume.bytes c.file).length < Word.signedLimit →
      Reached (c.tryNext disk).2

theorem Reached.short (h : c.Reached) : c.window.Short := by
  induction h with
  | opened opened =>
    rw [window_of_tailFrom opened]
    exact Window.short_atPlace (by decide)
  | @asked c disk _ short window =>
    by_cases valid : c.Valid disk
    · obtain ⟨rounds, polls⟩ := exists_polls short window valid.2
        (Nat.lt_succ_of_le (Nat.sub_le _ c.offset))
      rw [tryNext_of_valid valid]
      exact (polls.keeps short window valid.2).2.2.1
    · rwa [tryNext_of_not_valid valid]

/-- What asking a cursor comes to. -/
structure Polled (c : SegmentCursor) (disk : Disk) : Prop where
  fails : ¬c.Valid disk → c.tryNext disk = (.error (.cursorInvalidated c.offset), c)
  safe : c.Valid disk → Frame.Safe (disk.volume.bytes c.file) (c.offset, c.window)
  /-- The loop ends with the cursor's answer, and in no other way. -/
  ends_iff : c.Valid disk → ∀ answer c', (∃ rounds,
      Frame.headerSize * rounds ≤
        (disk.volume.bytes c.file).length - c.offset + Frame.headerSize ∧
      Polls (disk.volume.bytes c.file) c rounds answer c') ↔
    c.tryNext disk = (.ok answer, c')
  stays : ∀ answer c', c.tryNext disk = (.ok answer, c') →
    c.offset ≤ c'.offset ∧ c'.offset ≤ (disk.volume.bytes c.file).length

theorem polled_of_short (short : (disk.volume.bytes c.file).length < Word.signedLimit)
    (window : c.window.Short) : c.Polled disk := by
  have enough : (disk.volume.bytes c.file).length - c.offset <
      (disk.volume.bytes c.file).length + 1 := Nat.lt_succ_of_le (Nat.sub_le _ _)
  refine ⟨tryNext_of_not_valid, fun valid => Frame.safe_of_short short window valid.2, ?_, ?_⟩
  · intro valid answer c'
    rw [tryNext_of_valid valid]
    constructor
    · rintro ⟨rounds, -, polls⟩
      rw [polls.readOn_eq short window valid.2 enough]
    · intro answered
      cases answered
      obtain ⟨rounds, polls⟩ := exists_polls short window valid.2 enough
      exact ⟨rounds, (polls.keeps short window valid.2).2.2.2, polls⟩
  · intro answer c' answered
    by_cases valid : c.Valid disk
    · obtain ⟨rounds, polls⟩ := exists_polls short window valid.2 enough
      rw [tryNext_of_valid valid] at answered
      cases answered
      obtain ⟨later, inside, -⟩ := polls.keeps short window valid.2
      exact ⟨later, inside⟩
    · rw [tryNext_of_not_valid valid] at answered
      cases answered

/-- The documents that a cursor answers when it is asked so many times. -/
def answers (disk : Disk) : Nat → SegmentCursor → List Document
  | 0, _ => []
  | n + 1, c =>
    match c.tryNext disk with
    | (.ok answer, c) => answer.toList ++ answers disk n c
    | (.error _, _) => []

/-- A cursor whose window shows the file answers documents of whole frames in front of it, one behind
the other. -/
theorem exists_frames (n : Nat) (shows : c.window.Shows (disk.volume.bytes c.file)) :
    ∃ frames : List (Nat × Document), frames.map (·.2) = c.answers disk n ∧
      (∀ p ∈ frames, c.offset ≤ p.1 ∧ Frame.Stands (disk.volume.bytes c.file) p.1 p.2) ∧
      frames.Pairwise fun p q => Frame.endAt (disk.volume.bytes c.file) p.1 ≤ q.1 := by
  induction n generalizing c with
  | zero => exact ⟨[], rfl, List.forall_mem_nil _, .nil⟩
  | succ n ih =>
    unfold answers
    by_cases valid : c.Valid disk
    · obtain ⟨w, next, skipped, shows', -, outcome⟩ :=
        readOn_passes ((disk.volume.bytes c.file).length + 1) c shows
          (Nat.lt_succ_of_le (Nat.sub_le _ _))
      obtain ⟨frames, found, before, apart⟩ :=
        ih (c := { c with window := w, offset := next }) shows'
      rw [tryNext_of_valid valid]
      rcases outcome with ⟨read, passes, -⟩ | ⟨place, d, read, passes, -⟩
      · rw [read]
        refine ⟨frames, found, ?_, apart⟩
        intro p hp
        exact ⟨Nat.le_trans passes.stands.1 (before p hp).1, (before p hp).2⟩
      · rw [read]
        obtain ⟨moved, stands, -⟩ := passes.stands
        obtain ⟨behind, here, ends⟩ := stands (place, d) (by simp)
        refine ⟨(place, d) :: frames, by simp [found], ?_, ?_⟩
        · refine List.forall_mem_cons.mpr ⟨⟨behind, here⟩, ?_⟩
          intro p hp
          exact ⟨Nat.le_trans moved (before p hp).1, (before p hp).2⟩
        · refine List.pairwise_cons.mpr ⟨?_, apart⟩
          intro p hp
          exact Nat.le_trans ends (before p hp).1
    · rw [tryNext_of_not_valid valid]
      exact ⟨[], rfl, List.forall_mem_nil _, .nil⟩

end SegmentCursor

/-- On a file shorter than `2 ^ 63` bytes, whatever these are, the loops of a scan and of a cursor
come to an end after at most one round for every eight bytes and one more, and no check of a number
fails on the way: no sum, no distance, and no number of bytes that are asked for. Every round but the
last moves on by a header at least, and none leaves the file. What a scan finds are the documents of
whole frames, one behind the other, and so is what a cursor answers one after the other whose window
shows the file, as it does when it was just opened. -/
theorem Frame.walks_any_bytes {disk : Disk} {number : Nat}
    (short : (disk.volume.bytes number).length < Word.signedLimit) :
    let file := disk.volume.bytes number
    Walked file ∧
      (∀ c : SegmentCursor, c.Reached → c.file = number → c.Polled disk) ∧
      (∀ (c : SegmentCursor) (n : Nat), c.file = number → c.window.Shows file →
        ∃ frames : List (Nat × Document), frames.map (·.2) = c.answers disk n ∧
          (∀ p ∈ frames, c.offset ≤ p.1 ∧ Stands file p.1 p.2) ∧
          frames.Pairwise fun p q => endAt file p.1 ≤ q.1) ∧
      ∀ (s : Segment) (source : Instant) (before : Disk) (c : SegmentCursor),
        s.tailFrom source before = .ok c → c.window.Shows file := by
  intro file
  refine ⟨walked_of_short short, ?_, ?_, ?_⟩
  · rintro c reached rfl
    exact SegmentCursor.polled_of_short short reached.short
  · rintro c n rfl shows
    exact SegmentCursor.exists_frames n shows
  · intro s source before c opened
    rw [SegmentCursor.window_of_tailFrom opened]
    exact List.nil_prefix

/-- An empty frame, a document, a damaged frame, another document, and a header that tells of more
than four thousand million bytes. -/
theorem Frame.walks_any_bytes_of_damaged :
    let t : Instant := ⟨0, 0, by decide, by decide, by decide, by decide⟩
    let file := [0, 0, 0, 0, 0, 0, 0, 0] ++ encode ⟨t, 1, .null⟩ ++
      [3, 0, 0, 0, 0, 0, 0, 0, 1, 2, 3] ++ encode ⟨t, 2, .null⟩ ++
      [255, 255, 255, 255, 0, 0, 0, 0, 123]
    let disk := Disk.ofFile file
    let s : Segment := ⟨⟨"traces"⟩, 0, 0, 100, 0⟩
    let c : SegmentCursor := ⟨0, .atPlace 0, 0, t, 0, 0⟩
    disk.volume.bytes 0 = file ∧ file.length < Word.signedLimit ∧ s.tailFrom t disk = .ok c ∧
      Walked file ∧ scan file = [(8, ⟨t, 1, .null⟩), (81, ⟨t, 2, .null⟩)] ∧ c.Polled disk ∧
      ∃ frames : List (Nat × Document), frames.map (·.2) = [⟨t, 1, .null⟩, ⟨t, 2, .null⟩] ∧
        (∀ p ∈ frames, 0 ≤ p.1 ∧ Stands file p.1 p.2) ∧
        frames.Pairwise fun p q => endAt file p.1 ≤ q.1 := by
  intro t file disk s c
  have bytes : disk.volume.bytes 0 = file := by rfl
  have short : file.length < Word.signedLimit := by decide +kernel
  have placed : s.InPlace disk := ⟨Disk.file_ofFile file⟩
  have opened : s.tailFrom t disk = .ok c := placed.tailFrom_eq t
  obtain ⟨walked, polled, frames, shows⟩ := @walks_any_bytes disk 0 short
  have answered : c.answers disk 4 = [⟨t, 1, .null⟩, ⟨t, 2, .null⟩] := by decide +kernel
  refine ⟨bytes, short, opened, walked, by decide +kernel, polled c (.opened opened) rfl, ?_⟩
  have found := frames c 4 rfl (shows s t disk c opened)
  rwa [answered] at found

end TraceJournal
