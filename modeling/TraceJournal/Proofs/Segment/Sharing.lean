import Mathlib.Logic.Function.Basic
import TraceJournal.Proofs.Segment.Accepted
import TraceJournal.Proofs.Segment.Readership

/-!
# Two stores on one file

Two stores whose paths lead to the same file, with cursors that were opened through the one or the
other. Until the file is cut, a cursor answers what is inserted through either. Once its own store
has cut the file it fails for good. Of a cut by the other store it learns only from the length of
the file: while the file ends before the cursor's place it fails, but when the file is long enough,
or has become so again, it reads on among bytes that have moved.
-/

namespace TraceJournal

/-- At the start of a file nothing has been passed over. -/
theorem Frame.Passes.eq_nil_of_zero {file : List UInt8} {passed : List (Nat × Document)}
    (h : Passes file 0 passed 0) : passed = [] := by
  cases h with
  | stay => rfl
  | document _ hr =>
    have progress := (progress_of_complete hr).1
    simp only [headerSize] at progress
    omega
  | damaged _ hr =>
    have progress := (progress_of_corrupt hr).1
    simp only [headerSize] at progress
    omega

namespace SegmentCursor

/-- Nothing of the file has been read through the cursor. -/
def Unread (c : SegmentCursor) : Prop := c.offset = 0 ∧ c.window.filled = []

instance (c : SegmentCursor) : Decidable c.Unread := inferInstanceAs (Decidable (_ ∧ _))

/-- A document that is answered is not before the cursor's time. -/
theorem source_le_of_readOn {file : List UInt8} {rounds : Nat} {c : SegmentCursor} {d : Document}
    (h : (c.readOn file rounds).1 = some d) : c.source ≤ d.time := by
  induction rounds generalizing c with
  | zero => cases h
  | succ rounds ih =>
    unfold readOn at h
    split at h
    · simp only at h
      split at h
      · next matching =>
        cases h
        exact matching
      · have later := ih h
        exact later
    · have later := ih h
      exact later
    · cases h

theorem source_le_of_tryNext {disk : Disk} {c : SegmentCursor} {d : Document}
    (h : (c.tryNext disk).1 = .ok (some d)) : c.source ≤ d.time := by
  by_cases valid : c.Valid disk
  · rw [tryNext_of_valid valid] at h
    exact source_le_of_readOn (Except.ok.inj h)
  · rw [tryNext_of_not_valid valid] at h
    cases h

/-- As long as its own store has not cut the file, a cursor fails exactly while the file ends before
its place. -/
theorem tryNext_eq_error_iff {disk : Disk} {c : SegmentCursor}
    (uncut : disk.cutsOf c.number = c.opened) :
    c.tryNext disk = (.error (.cursorInvalidated c.offset), c) ↔
      (disk.volume.bytes c.file).length < c.offset := by
  constructor
  · intro failed
    by_contra long
    rw [tryNext_of_valid ⟨uncut, Nat.le_of_not_lt long⟩] at failed
    cases congrArg (·.1) failed
  · intro short
    exact tryNext_of_not_valid fun valid => Nat.not_le_of_lt short valid.2

/-- A cursor that fails stays where it is. -/
theorem tryNext_eq_of_error {disk : Disk} {c : SegmentCursor} {e : StoreError}
    (h : (c.tryNext disk).1 = .error e) :
    c.tryNext disk = (.error (.cursorInvalidated c.offset), c) := by
  refine tryNext_of_not_valid fun valid => ?_
  rw [tryNext_of_valid valid] at h
  cases h

end SegmentCursor

/-- A cursor on a file that two stores share, with all that it has answered. -/
structure SharedReading where
  cursor : SegmentCursor
  /-- The time from which on it was opened. -/
  source : Instant
  /-- The store through which it was opened. -/
  side : Bool
  /-- The bytes of the file when it was opened, or when the other store cut the file before anything
  was read. -/
  base : List UInt8
  /-- The documents that were put into the file since, until it was cut. -/
  put : List Document
  /-- All documents that it has answered. -/
  found : List Document
  /-- The file was cut through the store that it was opened through. -/
  cut : Bool
  /-- The file was cut through the other store, after something had been read. -/
  shifted : Bool
  /-- After that it has answered something else than an error. -/
  misled : Bool

namespace SharedReading

/-- The documents that there are for the cursor. -/
def offered (r : SharedReading) : List Document :=
  Frame.documents (r.base ++ Frame.encodeAll r.put)

/-- The documents that the cursor is to answer. -/
def wanted (r : SharedReading) : List Document := r.offered.filter fun d => r.source ≤ d.time

/-- The cursor after a document was inserted through one of the stores, which has cut the file so
that some bytes are left, or has not. -/
def offer (side : Bool) (d : Document) (cut : Bool) (left : List UInt8) (r : SharedReading) :
    SharedReading :=
  if r.cut then r
  else if cut ∧ side = r.side then { r with cut := true }
  else if r.shifted then r
  else if cut then
    if r.cursor.Unread then { r with base := left, put := [] } else { r with shifted := true }
  else if d.Fits then { r with put := r.put ++ [d] }
  else r

/-- The cursor after it was asked. -/
def ask (disk : Disk) (r : SharedReading) : SharedReading :=
  let (answer, cursor) := r.cursor.tryNext disk
  let misled := r.misled || (r.shifted && answer.toBool)
  match answer with
  | .ok (some d) => { r with cursor, misled, found := r.found ++ [d] }
  | _ => { r with cursor, misled }

/-- A cursor that does not fail has answered what it answers, if that is a document, and is misled
if the file was shifted. -/
theorem ask_of_ok {r : SharedReading} {disk : Disk} {answer : Option Document} {c : SegmentCursor}
    (asked : r.cursor.tryNext disk = (.ok answer, c)) :
    r.ask disk =
      { r with
        cursor := c
        found := r.found ++ answer.toList
        misled := r.misled || r.shifted } := by
  cases answer with
  | none =>
    simp only [ask, asked, Except.toBool, Bool.and_true, Option.toList_none, List.append_nil]
  | some d => simp only [ask, asked, Except.toBool, Bool.and_true, Option.toList_some]

/-- A failure changes nothing. -/
theorem ask_of_error {r : SharedReading} {disk : Disk} {e : StoreError}
    (failed : r.cursor.tryNext disk = (.error e, r.cursor)) : r.ask disk = r := by
  simp only [ask, failed, Except.toBool, Bool.and_false, Bool.or_false]

/-- What a cursor does on a file that two stores share. -/
structure Exact (r : SharedReading) (disk : Disk) : Prop where
  times : ∀ d ∈ r.found, r.source ≤ d.time
  /-- What there is for the cursor are the documents that were in the file, and then those that were
  inserted, each as what it becomes when it is read back. -/
  offered : ∀ stored, (∀ d ∈ stored, d.Fits) → r.base = Frame.encodeAll stored →
    r.offered = (stored ++ r.put).filterMap Document.reread?
  /-- Unless it is misled, it has answered the first of them that are not before its time. -/
  found : r.misled = false → r.found <+: r.wanted
  next : r.cut = false → r.shifted = false →
    (r.cursor.tryNext disk).1 = .ok r.wanted[r.found.length]?
  lost : r.cut = true →
    r.cursor.tryNext disk = (.error (.cursorInvalidated r.cursor.offset), r.cursor)
  /-- After a cut by the other store it fails exactly while the file ends before its place. -/
  fails_iff : r.cut = false → r.shifted = true →
    (r.cursor.tryNext disk = (.error (.cursorInvalidated r.cursor.offset), r.cursor) ↔
      (disk.volume.bytes r.cursor.file).length < r.cursor.offset)

end SharedReading

/-- Two stores on one file, with all cursors that were opened through them. -/
structure Sharing where
  stores : Bool → Segment
  disk : Disk
  readings : List SharedReading

namespace Sharing

/-- What happens to two stores on one file. -/
inductive Action where
  /-- A document is inserted through one of the stores. -/
  | insert (side : Bool) (d : Document)
  /-- A cursor is opened through one of them. -/
  | tail (side : Bool) (source : Instant)
  /-- The cursor with this number is asked. -/
  | ask (number : Nat)

/-- Two stores, without any cursors. -/
def start (first second : Segment) (disk : Disk) : Sharing :=
  ⟨fun side => bif side then second else first, disk, []⟩

/-- The stores and the cursors after an action. -/
def next (w : Sharing) : Action → Sharing
  | .insert side d =>
    let (result, store, disk) := (w.stores side).insert d w.disk
    let cut := result.toBool && decide ((w.stores side).Overflows d)
    { stores := Function.update w.stores side store
      disk
      readings := w.readings.map (.offer side d cut (store.bytes disk)) }
  | .tail side source =>
    match (w.stores side).tailFrom source w.disk with
    | .ok cursor =>
      { w with
        readings := w.readings ++
          [⟨cursor, source, side, (w.stores side).bytes w.disk, [], [], false, false, false⟩] }
    | .error _ => w
  | .ask number => { w with readings := w.readings.modify number (.ask w.disk) }

/-- The stores and the cursors after some actions. -/
def run (w : Sharing) (actions : List Action) : Sharing := actions.foldl next w

/-! ## Stores that have aborted -/

/-- Two stores on one file of which each is used until it aborts. An abort leaves the lock on the
store poisoned, so that it inserts nothing any more. -/
structure Guarded where
  sharing : Sharing
  aborted : Bool → Bool

namespace Guarded

/-- The stores after an action. -/
def next (g : Guarded) : Action → Guarded
  | .insert side d =>
    if g.aborted side then g
    else
      { sharing := g.sharing.next (.insert side d)
        aborted := Function.update g.aborted side
          (((g.sharing.stores side).insert d g.sharing.disk).1 = .error .frameBeyondEnd) }
  | action => { g with sharing := g.sharing.next action }

/-- The stores after some actions. -/
def run (g : Guarded) (actions : List Action) : Guarded := actions.foldl next g

/-- An action is refused, or comes to what it comes to for stores that nothing keeps from going
on. -/
theorem sharing_next (g : Guarded) (action : Action) :
    (g.next action).sharing = g.sharing ∨
      (g.next action).sharing = g.sharing.next action := by
  cases action with
  | insert side d =>
    by_cases aborted : g.aborted side = true
    · left
      rw [next, if_pos aborted]
    · right
      rw [next, if_neg aborted]
  | tail side source | ask number => exact .inr rfl

/-- What happens to stores that are used until they abort is what happens to stores without that
guard when the insertions that are refused are left out. So what holds after any actions of two
stores that go on holds of stores that do not. -/
theorem exists_sharing_run (g : Guarded) (actions : List Action) :
    ∃ made : List Action, made.Sublist actions ∧
      (g.run actions).sharing = g.sharing.run made := by
  induction actions generalizing g with
  | nil => exact ⟨[], .slnil, rfl⟩
  | cons action rest ih =>
    obtain ⟨made, part, same⟩ := ih (g.next action)
    rcases g.sharing_next action with refused | taken
    · rw [refused] at same
      exact ⟨made, part.cons action, same⟩
    · rw [taken] at same
      exact ⟨action :: made, part.cons_cons action, same⟩

end Guarded

end Sharing

/-! ## What every action keeps -/

/-- The paths of the two stores lead to the same file, and their cuts are counted apart. -/
structure Segment.Shares (stores : Bool → Segment) (disk : Disk) : Prop where
  inPlace : ∀ side, (stores side).InPlace disk
  file_eq : ∀ side other, (stores side).file = (stores other).file
  number_ne : ∀ side other, side ≠ other → (stores side).number ≠ (stores other).number
  known : ∀ side, (stores side).number < disk.cuts.length

namespace Segment.Shares

variable {stores : Bool → Segment} {disk : Disk}

theorem of_openAt {first second : Segment} {maxSize : Nat} {disk' : Disk}
    (inPlace : first.InPlace disk) (known : first.number < disk.cuts.length)
    (opened : openAt first.path maxSize disk = (.ok second, disk')) :
    Shares (fun side => bif side then second else first) disk' := by
  rw [inPlace.openAt_eq maxSize] at opened
  cases opened
  constructor
  · intro side
    cases side <;> exact ⟨inPlace.file_path⟩
  · intro side other
    cases side <;> cases other <;> rfl
  · intro side other ne
    cases side <;> cases other
    · exact absurd rfl ne
    · exact Nat.ne_of_lt known
    · exact Nat.ne_of_gt known
    · exact absurd rfl ne
  · intro side
    rw [List.length_append, List.length_singleton]
    cases side
    · exact Nat.lt_succ_of_lt known
    · exact Nat.lt_succ_self _

/-- An insertion leaves paths, files and numbers as they are. -/
theorem update {side : Bool} {d : Document}
    {answer : Except StoreError Unit × Segment × Disk}
    (inserted : (stores side).Inserted disk d answer) (other : Bool) :
    (Function.update stores side answer.2.1 other).path = (stores other).path ∧
      (Function.update stores side answer.2.1 other).file = (stores other).file ∧
      (Function.update stores side answer.2.1 other).number = (stores other).number := by
  by_cases same : other = side
  · subst same
    rw [Function.update_self]
    exact ⟨inserted.path_eq, inserted.file_eq, inserted.number_eq⟩
  · rw [Function.update_of_ne same]
    exact ⟨rfl, rfl, rfl⟩

theorem insert (h : Shares stores disk) {side : Bool} {d : Document}
    {answer : Except StoreError Unit × Segment × Disk}
    (inserted : (stores side).Inserted disk d answer) :
    Shares (Function.update stores side answer.2.1) answer.2.2 where
  inPlace other := by
    obtain ⟨path, file, -⟩ := update inserted other
    constructor
    rw [path, file, inserted.file_path]
    exact (h.inPlace other).file_path
  file_eq a b := by
    rw [(update inserted a).2.1, (update inserted b).2.1]
    exact h.file_eq a b
  number_ne a b ne := by
    rw [(update inserted a).2.2, (update inserted b).2.2]
    exact h.number_ne a b ne
  known other := by
    rw [(update inserted other).2.2, inserted.cuts_length]
    exact h.known other

/-- Both stores have the same bytes. -/
theorem bytes_eq (h : Shares stores disk) (side other : Bool) :
    (stores side).bytes disk = (stores other).bytes disk := by
  rw [Segment.bytes, h.file_eq side other, Segment.bytes]

/-- The cuts of a store stay, unless it has cut the file itself. -/
theorem cutsOf_eq (h : Shares stores disk) {side : Bool} {d : Document}
    {answer : Except StoreError Unit × Segment × Disk}
    (inserted : (stores side).Inserted disk d answer) {other : Bool}
    (uncut : side = other → ¬(answer.1 = .ok () ∧ (stores side).Overflows d)) :
    answer.2.2.cutsOf (stores other).number = disk.cutsOf (stores other).number := by
  by_cases own : side = other
  · rw [inserted.eq_of_uncut (uncut own)]
    split <;> rfl
  · exact inserted.cutsOf_of_ne (h.number_ne side other own)

end Segment.Shares

/-- The cursor was opened through its store, follows it until the file is cut, and is lost once its
own store has cut the file; it has answered what it was to answer, unless it was misled. -/
structure SharedReading.Stands (r : SharedReading) (stores : Bool → Segment) (disk : Disk) :
    Prop where
  source_eq : r.cursor.source = r.source
  number_eq : r.cursor.number = (stores r.side).number
  fits : ∀ d ∈ r.put, d.Fits
  times : ∀ d ∈ r.found, r.source ≤ d.time
  found : r.misled = false → r.found <+: r.wanted
  follows : r.cut = false → r.shifted = false →
    (stores r.side).bytes disk = r.base ++ Frame.encodeAll r.put ∧
      ∃ seen, r.cursor.Follows (stores r.side) disk seen ∧
        r.found = seen.filter fun d => r.source ≤ d.time
  uncut : r.cut = false → disk.cutsOf r.cursor.number = r.cursor.opened
  lost : r.cut = true → r.cursor.Lost disk

namespace SharedReading.Stands

variable {r : SharedReading} {stores : Bool → Segment} {disk : Disk}

/-- Asking a cursor whose file was not cut. -/
theorem exists_ask (h : r.Stands stores disk) (inPlace : (stores r.side).InPlace disk)
    (uncut : r.cut = false) (unshifted : r.shifted = false) :
    ∃ c', r.cursor.tryNext disk = (.ok r.wanted[r.found.length]?, c') ∧
      Stands { r with cursor := c', found := r.found ++ r.wanted[r.found.length]?.toList } stores
        disk := by
  obtain ⟨bytes, seen, follows, found⟩ := h.follows uncut unshifted
  have all := inPlace.documents_eq
  rw [bytes] at all
  obtain ⟨more, c', answer, after, new⟩ := follows.answers all h.source_eq
  rw [← found] at answer new
  have moved := r.cursor.exists_tryNext disk
  rw [answer] at moved
  obtain ⟨w, next, rfl⟩ := moved
  have grown : r.found ++ r.wanted[r.found.length]?.toList =
      (seen ++ more).filter fun d => r.source ≤ d.time := by
    rw [List.filter_append, new, ← found]
    rfl
  refine ⟨_, answer, h.source_eq, h.number_eq, h.fits, ?_, ?_, ?_, h.uncut, ?_⟩
  · simp only [grown]
    intro d member
    exact of_decide_eq_true (List.mem_filter.mp member).2
  · intro _
    simp only [grown]
    obtain ⟨ahead, split⟩ : ∃ ahead, r.offered = seen ++ more ++ ahead :=
      ⟨_, Except.ok.inj (all.symm.trans after.documents)⟩
    have front : seen ++ more <+: r.offered := split ▸ List.prefix_append _ _
    exact front.filter _
  · exact fun _ _ => ⟨bytes, _, after, grown⟩
  · intro cut
    cases uncut.symm.trans cut

/-- Asking a cursor. -/
theorem ask (h : r.Stands stores disk) (inPlace : (stores r.side).InPlace disk) :
    (r.ask disk).Stands stores disk := by
  cases cut : r.cut with
  | true =>
    rw [ask_of_error (h.lost cut).tryNext_eq]
    exact h
  | false =>
    cases shifted : r.shifted with
    | false =>
      obtain ⟨c', answer, stands⟩ := h.exists_ask inPlace cut shifted
      have same : (r.misled || r.shifted) = r.misled := by rw [shifted, Bool.or_false]
      rw [ask_of_ok answer, same]
      exact stands
    | true =>
      have moved := r.cursor.exists_tryNext disk
      have times (d : Document) (answered : (r.cursor.tryNext disk).1 = .ok (some d)) :
          r.source ≤ d.time := h.source_eq ▸ SegmentCursor.source_le_of_tryNext answered
      rcases answer : r.cursor.tryNext disk with ⟨e | found, c'⟩
      · rw [ask_of_error (SegmentCursor.tryNext_eq_of_error (congrArg (·.1) answer))]
        exact h
      · rw [answer] at moved times
        obtain ⟨w, next, rfl⟩ := moved
        rw [ask_of_ok answer, shifted, Bool.or_true]
        refine ⟨h.source_eq, h.number_eq, h.fits, ?_, nofun, nofun, h.uncut, ?_⟩
        · refine List.forall_mem_append.mpr ⟨h.times, fun d member => times d ?_⟩
          rw [Option.mem_toList.mp member]
        · intro lost
          cases cut.symm.trans lost

/-- The cursor's own store has cut the file. -/
private theorem lose (h : r.Stands stores disk) {stores' : Bool → Segment} {disk' : Disk}
    (number : r.cursor.number = (stores' r.side).number) (lost : r.cursor.Lost disk') :
    Stands { r with cut := true } stores' disk' where
  source_eq := h.source_eq
  number_eq := number
  fits := h.fits
  times := h.times
  found := h.found
  follows := nofun
  uncut := nofun
  lost _ := lost

/-- The other store has cut the file, now or before. -/
private theorem shift (h : r.Stands stores disk) {stores' : Bool → Segment} {disk' : Disk}
    (number : r.cursor.number = (stores' r.side).number) (cut : r.cut = false)
    (uncut : disk'.cutsOf r.cursor.number = r.cursor.opened) :
    Stands { r with shifted := true } stores' disk' where
  source_eq := h.source_eq
  number_eq := number
  fits := h.fits
  times := h.times
  found := h.found
  follows := nofun
  uncut _ := uncut
  lost := by
    intro lost
    cases cut.symm.trans lost

/-- A cursor through which nothing was read begins anew in whatever the file has become. -/
private theorem restart (h : r.Stands stores disk) {stores' : Bool → Segment} {disk' : Disk}
    (number : r.cursor.number = (stores' r.side).number) (cut : r.cut = false)
    (uncut : disk'.cutsOf r.cursor.number = r.cursor.opened) (shifted : r.shifted = false)
    (unread : r.cursor.Unread) (path : disk'.volume.file (stores' r.side).path =
      disk.volume.file (stores r.side).path) :
    Stands { r with base := (stores' r.side).bytes disk', put := [] } stores' disk' := by
  obtain ⟨-, seen, follows, found⟩ := h.follows cut shifted
  obtain ⟨passed, passes, rfl⟩ := follows.passes
  rw [unread.1] at passes
  rw [passes.eq_nil_of_zero, List.map_nil, List.filter_nil] at found
  have again : r.cursor.Follows (stores' r.side) disk' [] := by
    refine ⟨path.trans follows.file_path, uncut, ?_, [], ?_, rfl⟩
    · rw [Window.Shows, unread.2]
      exact List.nil_prefix
    · rw [unread.1]
      exact .stay
  refine ⟨h.source_eq, number, List.forall_mem_nil _, h.times, ?_, ?_, fun _ => uncut, ?_⟩
  · intro _
    simp only [found]
    exact List.nil_prefix
  · intro _ _
    refine ⟨?_, [], again, found⟩
    rw [Frame.encodeAll_nil, List.append_nil]
  · intro lost
    cases cut.symm.trans lost

/-- A frame was put at the end of the file. -/
private theorem extend (h : r.Stands stores disk) {stores' : Bool → Segment} {disk' : Disk}
    {d : Document} (number : r.cursor.number = (stores' r.side).number) (cut : r.cut = false)
    (uncut : disk'.cutsOf r.cursor.number = r.cursor.opened) (shifted : r.shifted = false)
    (fits : d.Fits)
    (follows : ∀ seen, r.cursor.Follows (stores r.side) disk seen →
      r.cursor.Follows (stores' r.side) disk' seen)
    (bytes : (stores' r.side).bytes disk' = (stores r.side).bytes disk ++ Frame.encode d) :
    Stands { r with put := r.put ++ [d] } stores' disk' := by
  obtain ⟨before, seen, behind, found⟩ := h.follows cut shifted
  have grown : r.base ++ Frame.encodeAll (r.put ++ [d]) =
      r.base ++ Frame.encodeAll r.put ++ Frame.encode d := by
    rw [Frame.encodeAll_append, Frame.encodeAll_cons, Frame.encodeAll_nil, List.append_nil,
      List.append_assoc]
  refine ⟨h.source_eq, number, ?_, h.times, ?_, ?_, fun _ => uncut, ?_⟩
  · exact List.forall_mem_append.mpr ⟨h.fits, List.forall_mem_singleton.mpr fits⟩
  · intro fine
    refine (h.found fine).trans ?_
    simp only [wanted, offered, grown]
    exact (Frame.documents_prefix_append _ _).filter _
  · intro _ _
    refine ⟨?_, seen, follows seen behind, found⟩
    rw [bytes, before, grown]
  · intro lost
    cases cut.symm.trans lost

/-- A document is inserted through one of the stores. -/
theorem offer (h : r.Stands stores disk) (shares : Segment.Shares stores disk) {side : Bool}
    {d : Document} {answer : Except StoreError Unit × Segment × Disk}
    (inserted : (stores side).Inserted disk d answer) :
    (r.offer side d (answer.1.toBool && decide ((stores side).Overflows d))
      (answer.2.1.bytes answer.2.2)).Stands (Function.update stores side answer.2.1)
      answer.2.2 := by
  obtain ⟨path, -, same⟩ := Segment.Shares.update inserted r.side
  have number := h.number_eq.trans same.symm
  have leads : answer.2.2.volume.file (Function.update stores side answer.2.1 r.side).path =
      disk.volume.file (stores r.side).path := by rw [path, inserted.file_path]
  have left : (Function.update stores side answer.2.1 r.side).bytes answer.2.2 =
      answer.2.1.bytes answer.2.2 := by
    rw [(shares.insert inserted).bytes_eq r.side side, Function.update_self]
  have made : (answer.1.toBool && decide ((stores side).Overflows d)) = true ↔
      answer.1 = .ok () ∧ (stores side).Overflows d := by
    rw [Bool.and_eq_true_iff, decide_eq_true_iff]
    cases answer.1 <;> simp [Except.toBool]
  generalize (answer.1.toBool && decide ((stores side).Overflows d)) = flag at made ⊢
  have uncut (known : disk.cutsOf r.cursor.number = r.cursor.opened)
      (other : ¬(flag ∧ side = r.side)) : answer.2.2.cutsOf r.cursor.number = r.cursor.opened := by
    rw [h.number_eq, shares.cutsOf_eq inserted, ← h.number_eq, known]
    exact fun own cuts => other ⟨made.mpr cuts, own⟩
  unfold SharedReading.offer
  split
  · next cut =>
    -- What is lost stays lost.
    have lost := Nat.lt_of_lt_of_le (h.lost cut) (inserted.cutsOf_le _)
    have same : { r with cut := true } = r := by rw [← cut]
    exact same ▸ h.lose number lost
  · next cut =>
    have cut : r.cut = false := by simpa using cut
    have known := h.uncut cut
    split
    · next own =>
      obtain ⟨accepted, overflows⟩ := made.mp own.1
      have counted := inserted.cutsOf_eq accepted overflows (shares.known side)
      rw [own.2, ← h.number_eq, known] at counted
      refine h.lose number ?_
      rw [SegmentCursor.Lost, counted]
      exact Nat.lt_succ_self _
    · next other =>
      have uncut := uncut known other
      split
      · next shifted =>
        have same : { r with shifted := true } = r := by rw [← shifted]
        exact same ▸ h.shift number cut uncut
      · next shifted =>
        have shifted : r.shifted = false := by simpa using shifted
        split
        · split
          · next unread =>
            rw [← left]
            exact h.restart number cut uncut shifted unread leads
          · exact h.shift number cut uncut
        · next whole =>
          have same := inserted.eq_of_uncut fun cuts => whole (made.mpr cuts)
          split
          · next fits =>
            rw [if_pos fits] at same
            refine h.extend number cut uncut shifted fits ?_ ?_
            · intro seen behind
              have after := (behind.append (stores side) (Frame.encode d)).of_path path
              rwa [← same] at after
            · rw [left, same, (shares.inPlace side).bytes_append, shares.bytes_eq side r.side]
          · next long =>
            rw [if_neg long] at same
            rw [same, Function.update_eq_self]
            exact h

/-- A cursor that was just opened. -/
theorem opened (inPlace : ∀ side, (stores side).InPlace disk) {side : Bool} {source : Instant}
    {c : SegmentCursor} (tail : (stores side).tailFrom source disk = .ok c) :
    Stands ⟨c, source, side, (stores side).bytes disk, [], [], false, false, false⟩ stores
      disk := by
  obtain ⟨follows, -⟩ := SegmentCursor.follows_tailFrom tail
  rw [(inPlace side).tailFrom_eq] at tail
  cases tail
  refine ⟨rfl, rfl, List.forall_mem_nil _, List.forall_mem_nil _, fun _ => List.nil_prefix, ?_,
    fun _ => rfl, nofun⟩
  intro _ _
  refine ⟨?_, [], follows, rfl⟩
  rw [Frame.encodeAll_nil, List.append_nil]

/-- What holds of every cursor. -/
theorem exact (h : r.Stands stores disk) (inPlace : (stores r.side).InPlace disk) :
    r.Exact disk where
  times := h.times
  offered := by
    intro stored fits base
    rw [offered, base, ← Frame.encodeAll_append]
    exact Frame.documents_encodeAll_of_fits (List.forall_mem_append.mpr ⟨fits, h.fits⟩)
  found := h.found
  next cut shifted := by
    obtain ⟨c', answer, -⟩ := h.exists_ask inPlace cut shifted
    rw [answer]
  lost cut := (h.lost cut).tryNext_eq
  fails_iff cut _ := SegmentCursor.tryNext_eq_error_iff (h.uncut cut)

end SharedReading.Stands

namespace Sharing

/-- Both stores lead to one file, and every cursor stands somewhere in it or has lost its place. -/
structure Inv (w : Sharing) : Prop where
  shares : Segment.Shares w.stores w.disk
  stands : ∀ r ∈ w.readings, r.Stands w.stores w.disk

namespace Inv

variable {w : Sharing}

/-- The second store was opened while the first was in use. -/
theorem start {first second : Segment} {maxSize : Nat} {disk disk' : Disk}
    (inPlace : first.InPlace disk) (known : first.number < disk.cuts.length)
    (opened : Segment.openAt first.path maxSize disk = (.ok second, disk')) :
    Inv (Sharing.start first second disk') :=
  ⟨.of_openAt inPlace known opened, List.forall_mem_nil _⟩

theorem next (h : w.Inv) (action : Action) : (w.next action).Inv := by
  cases action with
  | insert side d =>
    have inserted := (h.shares.inPlace side).inserted d
    simp only [Sharing.next]
    generalize (w.stores side).insert d w.disk = answer at inserted ⊢
    refine ⟨h.shares.insert inserted, ?_⟩
    intro r member
    obtain ⟨r, listed, rfl⟩ := List.mem_map.mp member
    exact (h.stands r listed).offer h.shares inserted
  | tail side source =>
    cases tail : (w.stores side).tailFrom source w.disk with
    | error e =>
      simp only [Sharing.next, tail]
      exact h
    | ok c =>
      simp only [Sharing.next, tail]
      exact ⟨h.shares, List.forall_mem_append.mpr
        ⟨h.stands, List.forall_mem_singleton.mpr (.opened h.shares.inPlace tail)⟩⟩
  | ask number =>
    exact ⟨h.shares,
      forall_mem_modify h.stands (fun r stands => stands.ask (h.shares.inPlace r.side)) number⟩

theorem run (h : w.Inv) (actions : List Action) : (w.run actions).Inv := by
  induction actions generalizing w with
  | nil => exact h
  | cons action rest ih => exact ih (h.next action)

end Inv

/-- A store is opened on the file that another one uses, and both are used in any order, while
cursors are opened through either and asked. Whatever stood in the file, a cursor has answered the
first of the documents that there were for it, of those that are not before its time, in their order
and each once, unless it was misled; until the file is cut, its next answer is the next of them.
After a cut through its own store it fails for good. After one through the other store, by which
something that it had read was moved, it fails exactly while the file ends before its place; if it
is asked when the file does not, then it is misled, and reads on in what has moved. -/
theorem cursors_exact_until_misled {first second : Segment} {maxSize : Nat} {disk disk' : Disk}
    (inPlace : first.InPlace disk) (known : first.number < disk.cuts.length)
    (opened : Segment.openAt first.path maxSize disk = (.ok second, disk'))
    (actions : List Action) :
    let w := (start first second disk').run actions
    Segment.Shares w.stores w.disk ∧ ∀ r ∈ w.readings, r.Exact w.disk := by
  intro w
  have inv : w.Inv := (Inv.start inPlace known opened).run actions
  exact ⟨inv.shares, fun r member => (inv.stands r member).exact (inv.shares.inPlace r.side)⟩

/-- The second store cuts off all that was there before its own document. A cursor of the first one,
which had read that, stands where the file ends again: it does not fail, and the document is passed
over. -/
theorem cursors_exact_until_misled_by_cut :
    let t : Instant := ⟨0, 0, by decide, by decide, by decide, by decide⟩
    let d : Document := ⟨t, 1, .null⟩
    let e : Document := ⟨t, 2, .null⟩
    let first : Segment := ⟨⟨"traces"⟩, 0, 62, 1000, 0⟩
    let disk : Disk := ⟨(Disk.ofFile (Frame.encode d)).volume, [0]⟩
    let actions : List Action := [.tail false t, .ask 0, .insert true e]
    ∃ second disk', first.InPlace disk ∧ first.number < disk.cuts.length ∧
      Segment.openAt first.path 84 disk = (.ok second, disk') ∧
      let w := (start first second disk').run actions
      ∃ r ∈ w.readings, r.Exact w.disk ∧ r.found = [d] ∧ r.cut = false ∧ r.shifted = true ∧
        (w.stores false).documents w.disk = .ok [e] ∧ (r.cursor.tryNext w.disk).1 = .ok none := by
  intro t d e first disk actions
  have inPlace : first.InPlace disk := ⟨Disk.file_ofFile _⟩
  let second : Segment := ⟨⟨"traces"⟩, 0, 62, 84, 1⟩
  let both : Disk := ⟨disk.volume, [0, 0]⟩
  have opened : Segment.openAt first.path 84 disk = (.ok second, both) := by
    have size : (first.bytes disk).length = 62 := by decide +kernel
    rw [inPlace.openAt_eq, size]
    rfl
  refine ⟨second, both, inPlace, by decide, opened, ?_⟩
  obtain ⟨shares, exact⟩ := cursors_exact_until_misled inPlace (by decide) opened actions
  -- The second store appends its own document, and the cut leaves nothing else.
  have overflows : second.Overflows e := by decide +kernel
  have place : Segment.cutPlace? (second.size + (Frame.encode e).length) second.keptSize
      ((Frame.scan (second.bytes both ++ Frame.encode e)).map (·.1)) = some 62 := by
    decide +kernel
  have inserted := (Segment.InPlace.mk inPlace.file_path : second.InPlace both).insert_of_cut
    (by decide +kernel) overflows place
  let after := (second.append (Frame.encode e) both).1.withLeft
    ((second.bytes both ++ Frame.encode e).drop 62) (second.append (Frame.encode e) both).2
  have alone : Frame.documents (after.2.volume.bytes 0) = [e] := by decide +kernel
  -- The cursor has read the first document before, and ends where the new file ends.
  let c : SegmentCursor := ⟨0, .atPlace 0, 0, t, 0, 0⟩
  have tail : first.tailFrom t both = .ok c :=
    (Segment.InPlace.mk inPlace.file_path).tailFrom_eq t
  have found : (c.tryNext both).1 = .ok (some d) := by decide +kernel
  have read : ¬(c.tryNext both).2.Unread := by decide +kernel
  have silent : ((c.tryNext both).2.tryNext after.2).1 = .ok none := by decide +kernel
  rcases answer : c.tryNext both with ⟨result, c'⟩
  rw [answer] at found read silent
  subst found
  have asked : (start first second both).run [.tail false t, .ask 0] =
      { start first second both with
        readings := [⟨c', t, false, first.bytes both, [], [d], false, false, false⟩] } := by
    simp only [run, List.foldl_cons, List.foldl_nil, next, start, cond_false, tail,
      List.nil_append, List.modify_cons, SharedReading.ask, answer]
    rfl
  have run : (start first second both).run actions =
      ⟨Function.update (start first second both).stores true after.1, after.2,
        [⟨c', t, false, first.bytes both, [], [d], false, true, false⟩]⟩ := by
    simp only [actions, Sharing.run, List.foldl_cons, List.foldl_nil] at asked ⊢
    rw [asked]
    simp [next, start, inserted, overflows, read, Except.toBool, SharedReading.offer, after]
  rw [run] at shares exact ⊢
  refine ⟨_, List.mem_cons_self, exact _ List.mem_cons_self, rfl, rfl, rfl, ?_, ?_⟩
  · exact (shares.inPlace false).documents_eq.trans (congrArg Except.ok alone)
  · exact silent

end Sharing

end TraceJournal
