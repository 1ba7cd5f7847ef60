import TraceJournal.Proofs.Segment.Place
import TraceJournal.Proofs.Segment.Reading

/-!
# What an insertion comes to

A store in place refuses a document, appends its frame, or appends it and cuts the file. The number
of cuts of a store never falls and rises with every cut, so that a cursor that was opened before a
cut has lost its place for good, whatever is inserted later.
-/

namespace TraceJournal

namespace Disk

/-- The disk after one more cut of a store. -/
def countCut (disk : Disk) (number : Nat) : Disk :=
  { disk with cuts := disk.cuts.set number (disk.cutsOf number + 1) }

theorem cutsOf_countCut {disk : Disk} {number : Nat} (known : number < disk.cuts.length) :
    (disk.countCut number).cutsOf number = disk.cutsOf number + 1 := by
  simp [countCut, cutsOf, known]

theorem cutsOf_countCut_of_ne (disk : Disk) {number other : Nat} (ne : number ≠ other) :
    (disk.countCut number).cutsOf other = disk.cutsOf other := by
  simp [countCut, cutsOf, ne]

theorem cutsOf_le_countCut (disk : Disk) (number other : Nat) :
    disk.cutsOf other ≤ (disk.countCut number).cutsOf other := by
  by_cases same : number = other
  · subst same
    by_cases known : number < disk.cuts.length
    · have counted := cutsOf_countCut known
      omega
    · simp [countCut, cutsOf, known]
  · exact Nat.le_of_eq (cutsOf_countCut_of_ne disk same).symm

end Disk

namespace Segment

/-- The file is longer than its bound with the frame of the document, and would be cut. -/
def Overflows (s : Segment) (d : Document) : Prop :=
  s.maxSize < s.size + (Frame.encode d).length

instance (s : Segment) (d : Document) : Decidable (s.Overflows d) :=
  inferInstanceAs (Decidable (_ < _))

/-- The store, over a file with the given bytes, after a cut that left the bytes `left`. -/
def withLeft (s : Segment) (left : List UInt8) (disk : Disk) : Segment × Disk :=
  ({ s with size := left.length },
    { disk with volume := disk.volume.write s.file left }.countCut s.number)

theorem InPlace.bytes_withLeft {s : Segment} {disk : Disk} (h : s.InPlace disk)
    (left : List UInt8) : (s.withLeft left disk).1.bytes (s.withLeft left disk).2 = left :=
  Volume.bytes_write _ h.file_lt left

/-- What inserting a document into a store comes to. -/
inductive Inserted (s : Segment) (disk : Disk) (d : Document) :
    Except StoreError Unit × Segment × Disk → Prop where
  /-- The document fits into no frame. -/
  | refused : ¬d.Fits → Inserted s disk d (.error (.serialization tooLargeText), s, disk)
  /-- Its frame is put at the end of the file. -/
  | appended : d.Fits → ¬s.Overflows d →
    Inserted s disk d (.ok (), s.append (Frame.encode d) disk)
  /-- The file is cut then. -/
  | cut {place : Nat} : d.Fits → s.Overflows d →
    cutPlace? (s.size + (Frame.encode d).length) s.keptSize
      ((Frame.scan (s.bytes disk ++ Frame.encode d)).map (·.1)) = some place →
    Inserted s disk d (.ok (),
      (s.append (Frame.encode d) disk).1.withLeft ((s.bytes disk ++ Frame.encode d).drop place)
        (s.append (Frame.encode d) disk).2)
  /-- The file cannot be cut. -/
  | stuck : d.Fits → s.Overflows d →
    cutPlace? (s.size + (Frame.encode d).length) s.keptSize
      ((Frame.scan (s.bytes disk ++ Frame.encode d)).map (·.1)) = none →
    Inserted s disk d (.error .frameBeyondEnd, s.append (Frame.encode d) disk)

/-- An insertion into a store in place comes to one of these. -/
theorem InPlace.inserted {s : Segment} {disk : Disk} (h : s.InPlace disk) (d : Document) :
    Inserted s disk d (s.insert d disk) := by
  by_cases fits : d.Fits
  · have appended := h.append (Frame.encode d)
    have bytes := h.bytes_append (Frame.encode d)
    have size : (s.append (Frame.encode d) disk).1.size = s.size + (Frame.encode d).length := rfl
    have kept : (s.append (Frame.encode d) disk).1.keptSize = s.keptSize := rfl
    by_cases overflows : s.Overflows d
    · have long : ¬(s.append (Frame.encode d) disk).1.size ≤
          (s.append (Frame.encode d) disk).1.maxSize := Nat.not_le_of_lt overflows
      unfold Segment.insert
      rw [if_neg (Nat.not_lt_of_le fits)]
      simp only [if_neg long]
      cases place : cutPlace? (s.size + (Frame.encode d).length) s.keptSize
        ((Frame.scan (s.bytes disk ++ Frame.encode d)).map (·.1)) with
      | some n =>
        have found := place
        rw [← size, ← kept, ← bytes] at found
        rw [appended.compact_of_place found, bytes]
        exact .cut fits overflows place
      | none =>
        have missing := place
        rw [← size, ← kept, ← bytes] at missing
        rw [appended.compact_of_none missing]
        exact .stuck fits overflows place
    · rw [insert_of_room disk fits (Nat.le_of_not_lt overflows)]
      exact .appended fits overflows
  · rw [insert_of_not_fits s disk fits]
    exact .refused fits

/-- A document for which there is no room leads to a cut. -/
theorem InPlace.insert_of_cut {s : Segment} {disk : Disk} (h : s.InPlace disk) {d : Document}
    {place : Nat} (fits : d.Fits) (overflows : s.Overflows d)
    (found : cutPlace? (s.size + (Frame.encode d).length) s.keptSize
      ((Frame.scan (s.bytes disk ++ Frame.encode d)).map (·.1)) = some place) :
    s.insert d disk = (.ok (),
      (s.append (Frame.encode d) disk).1.withLeft ((s.bytes disk ++ Frame.encode d).drop place)
        (s.append (Frame.encode d) disk).2) := by
  have inserted := h.inserted d
  generalize s.insert d disk = answer at inserted ⊢
  cases inserted with
  | refused long => exact absurd fits long
  | appended _ room => exact absurd overflows room
  | stuck _ _ none => cases found.symm.trans none
  | cut _ _ cut =>
    cases found.symm.trans cut
    rfl

namespace Inserted

variable {s : Segment} {disk : Disk} {d : Document}
  {answer : Except StoreError Unit × Segment × Disk}

theorem number_eq (h : s.Inserted disk d answer) : answer.2.1.number = s.number := by
  cases h <;> rfl

theorem path_eq (h : s.Inserted disk d answer) : answer.2.1.path = s.path := by
  cases h <;> rfl

theorem file_eq (h : s.Inserted disk d answer) : answer.2.1.file = s.file := by
  cases h <;> rfl

theorem maxSize_eq (h : s.Inserted disk d answer) : answer.2.1.maxSize = s.maxSize := by
  cases h <;> rfl

/-- All paths lead to where they led before. -/
theorem file_path (h : s.Inserted disk d answer) (p : Path) :
    answer.2.2.volume.file p = disk.volume.file p := by
  cases h with
  | refused => rfl
  | appended | stuck => exact Volume.file_write _ _ _ _
  | cut => exact (Volume.file_write _ _ _ _).trans (Volume.file_write _ _ _ _)

theorem cuts_length (h : s.Inserted disk d answer) :
    answer.2.2.cuts.length = disk.cuts.length := by
  cases h with
  | cut => exact List.length_set
  | _ => rfl

theorem cutsOf_le (h : s.Inserted disk d answer) (number : Nat) :
    disk.cutsOf number ≤ answer.2.2.cutsOf number := by
  cases h with
  | cut fits overflows place => exact Disk.cutsOf_le_countCut _ _ _
  | _ => exact Nat.le_refl _

/-- A document that is accepted, and with whose frame the file is too long, leads to a cut. -/
theorem cutsOf_eq (h : s.Inserted disk d answer) (accepted : answer.1 = .ok ())
    (overflows : s.Overflows d) (known : s.number < disk.cuts.length) :
    answer.2.2.cutsOf s.number = disk.cutsOf s.number + 1 := by
  cases h with
  | refused => cases accepted
  | appended fits room => exact absurd overflows room
  | cut => exact Disk.cutsOf_countCut known
  | stuck => cases accepted

/-- Cuts count only for the store that makes them. -/
theorem cutsOf_of_ne (h : s.Inserted disk d answer) {other : Nat} (ne : s.number ≠ other) :
    answer.2.2.cutsOf other = disk.cutsOf other := by
  cases h with
  | cut => exact Disk.cutsOf_countCut_of_ne _ ne
  | _ => rfl

/-- Without a cut, the frame of a document that fits is at the end of the file. -/
theorem eq_of_uncut (h : s.Inserted disk d answer) (uncut : ¬(answer.1 = .ok () ∧ s.Overflows d)) :
    answer.2 = if d.Fits then s.append (Frame.encode d) disk else (s, disk) := by
  cases h with
  | refused long => rw [if_neg long]
  | appended fits | stuck fits => rw [if_pos fits]
  | cut _ overflows => exact absurd ⟨rfl, overflows⟩ uncut

end Inserted

/-- The cuts of a store that was just opened are counted. -/
theorem number_lt_of_openAt {path : Path} {maxSize : Nat} {s : Segment} {disk disk' : Disk}
    (h : openAt path maxSize disk = (.ok s, disk')) : s.number < disk'.cuts.length := by
  unfold openAt at h
  split at h
  · cases h
  · split at h
    · cases h
    · cases h
      simp

end Segment

/-! ## Cursors that have lost their place -/

namespace SegmentCursor

/-- The store through which the cursor was opened has cut its file since. -/
def Lost (c : SegmentCursor) (disk : Disk) : Prop := c.opened < disk.cutsOf c.number

variable {c : SegmentCursor} {disk : Disk}

/-- A cursor that has lost its place fails, and stays where it is. -/
theorem Lost.tryNext_eq (h : c.Lost disk) :
    c.tryNext disk = (.error (.cursorInvalidated c.offset), c) :=
  tryNext_of_not_valid fun valid => Nat.ne_of_gt h valid.1

/-- No insertion gives a cursor its place back. -/
theorem Lost.insert (h : c.Lost disk) {s : Segment} (placed : s.InPlace disk) (d : Document) :
    c.Lost (s.insert d disk).2.2 :=
  Nat.lt_of_lt_of_le h ((placed.inserted d).cutsOf_le c.number)

/-- Reading on moves nothing of a cursor but its window and its place. -/
theorem exists_readOn (file : List UInt8) (rounds : Nat) (c : SegmentCursor) :
    ∃ w next, (c.readOn file rounds).2 = { c with window := w, offset := next } := by
  induction rounds generalizing c with
  | zero => exact ⟨c.window, c.offset, rfl⟩
  | succ rounds ih =>
    unfold readOn
    split
    · simp only
      split
      · exact ⟨_, _, rfl⟩
      · exact ih _
    · exact ih _
    · exact ⟨_, _, rfl⟩

theorem exists_tryNext (c : SegmentCursor) (disk : Disk) :
    ∃ w next, (c.tryNext disk).2 = { c with window := w, offset := next } := by
  by_cases valid : c.Valid disk
  · rw [tryNext_of_valid valid]
    exact exists_readOn _ _ _
  · rw [tryNext_of_not_valid valid]
    exact ⟨c.window, c.offset, rfl⟩

end SegmentCursor

end TraceJournal
