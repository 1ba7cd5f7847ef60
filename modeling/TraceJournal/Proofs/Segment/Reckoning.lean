import TraceJournal.Proofs.Segment.Sharing
import TraceJournal.Proofs.Segment.Whole

/-!
# What stores on one file reckon with

A store knows the end of its file only from what it wrote itself. What another store puts into the
file or cuts off it has missed, until it cuts the file itself. How much it has missed decides what
comes of an insertion: whether the file is as long afterwards as the store says, how long it can be,
and whether the store meets a frame beyond the end that it reckons with. Then it aborts; what is said
of later insertions through it is about a store that goes on, and nothing is lost by that
(`Sharing.Guarded.exists_sharing_run`).
-/

namespace TraceJournal

namespace Segment

/-! ## Where a cut is made -/

/-- A store that reckons with so many bytes cuts at the first frame from which on it reckons with no
more than a cut leaves; if there is none, where it reckons the file to end. -/
structure CutsAt (size kept : Nat) (offsets : List Nat) (place : Nat) : Prop where
  there : place ∈ offsets ∨ place = size ∧ ∀ n ∈ offsets, n ≤ size
  within : place ≤ size
  short : size - place ≤ kept
  first : ∀ n ∈ offsets, n < place → kept < size - n

/-- A frame lies beyond the end that a store reckons with, and all frames before that are too far
from it. -/
def Beyond (size kept : Nat) (offsets : List Nat) : Prop :=
  (∃ n ∈ offsets, size < n) ∧ ∀ n ∈ offsets, n ≤ size → kept < size - n

theorem CutsAt.not_beyond {size kept place : Nat} {offsets : List Nat}
    (h : CutsAt size kept offsets place) : ¬Beyond size kept offsets := by
  rintro ⟨⟨n, hn, beyond⟩, far⟩
  have short := h.short
  rcases h.there with inside | ⟨-, all⟩
  · have := far place inside h.within
    omega
  · have := all n hn
    omega

/-- Among frames that stand behind one another, a place to be cut at is looked for from the front,
up to a frame beyond the end. -/
theorem cutPlace?_cases (size kept : Nat) {offsets : List Nat}
    (rising : offsets.Pairwise (· < ·)) :
    (cutPlace? size kept offsets = none ∧ Beyond size kept offsets) ∨
      ∃ place, cutPlace? size kept offsets = some place ∧ CutsAt size kept offsets place := by
  induction offsets with
  | nil =>
    refine .inr ⟨size, rfl, .inr ⟨rfl, List.forall_mem_nil _⟩, Nat.le_refl _, ?_,
      List.forall_mem_nil _⟩
    omega
  | cons m rest ih =>
    obtain ⟨behind, rising⟩ := List.pairwise_cons.mp rising
    rw [cutPlace?]
    by_cases beyond : size < m
    · left
      rw [if_pos beyond]
      refine ⟨rfl, ⟨m, List.mem_cons_self, beyond⟩, List.forall_mem_cons.mpr ⟨by omega, ?_⟩⟩
      intro n hn
      have := behind n hn
      omega
    · rw [if_neg beyond]
      by_cases near : size - m ≤ kept
      · right
        rw [if_pos near]
        refine ⟨m, rfl, .inl List.mem_cons_self, by omega, near,
          List.forall_mem_cons.mpr ⟨by omega, ?_⟩⟩
        intro n hn
        have := behind n hn
        omega
      · rw [if_neg near]
        rcases ih rising with ⟨none, ⟨n, hn, past⟩, far⟩ | ⟨place, found, cut⟩
        · left
          exact ⟨none, ⟨n, List.mem_cons_of_mem m hn, past⟩,
            List.forall_mem_cons.mpr ⟨by omega, far⟩⟩
        · right
          refine ⟨place, found, ?_, cut.within, cut.short,
            List.forall_mem_cons.mpr ⟨by omega, cut.first⟩⟩
          rcases cut.there with inside | ⟨ends, all⟩
          · exact .inl (List.mem_cons_of_mem m inside)
          · exact .inr ⟨ends, List.forall_mem_cons.mpr ⟨by omega, all⟩⟩

/-! ## One insertion -/

/-- What comes of an insertion through a store that has missed so many bytes of its file. -/
structure Reckons (s : Segment) (disk : Disk) (d : Document) (missed : Int)
    (answer : Except StoreError Unit × Segment × Disk) : Prop where
  refused_iff : answer.1 = .error (.serialization tooLargeText) ↔ ¬d.Fits
  /-- It aborts exactly if it has to cut the file and meets a frame beyond the end that it reckons
  with, before it has found a place. -/
  aborts_iff : answer.1 = .error .frameBeyondEnd ↔
    d.Fits ∧ s.Overflows d ∧ Beyond (s.size + (Frame.encode d).length) s.keptSize
      (Frame.starts (s.bytes disk ++ Frame.encode d))
  accepted : d.Fits → missed ≤ 0 → answer.1 = .ok ()
  appends : answer.1 = .ok () → ¬s.Overflows d →
    answer.2.1.bytes answer.2.2 = s.bytes disk ++ Frame.encode d ∧
      answer.2.1.size = s.size + (Frame.encode d).length
  cuts : answer.1 = .ok () → s.Overflows d →
    ∃ place, CutsAt (s.size + (Frame.encode d).length) s.keptSize
        (Frame.starts (s.bytes disk ++ Frame.encode d)) place ∧
      answer.2.1.bytes answer.2.2 = (s.bytes disk ++ Frame.encode d).drop place
  /-- Afterwards the store knows the end of the file exactly if it has cut it, or has missed
  nothing. -/
  size_iff : answer.1 = .ok () →
    (answer.2.1.size = (answer.2.1.bytes answer.2.2).length ↔ s.Overflows d ∨ missed = 0)
  /-- The file can be longer than its bound by what the store has missed. -/
  bound : answer.1 = .ok () →
    ((answer.2.1.bytes answer.2.2).length : Int) ≤ s.maxSize + max missed 0

/-- An insertion that fails. -/
private theorem Reckons.of_error {s : Segment} {disk : Disk} {d : Document} {missed : Int}
    {e : StoreError} {after : Segment × Disk}
    (refused : e = .serialization tooLargeText ↔ ¬d.Fits)
    (aborts : e = .frameBeyondEnd ↔
      d.Fits ∧ s.Overflows d ∧ Beyond (s.size + (Frame.encode d).length) s.keptSize
        (Frame.starts (s.bytes disk ++ Frame.encode d)))
    (spared : d.Fits → ¬missed ≤ 0) : s.Reckons disk d missed (.error e, after) where
  refused_iff := (Except.error.injEq e _).to_iff.trans refused
  aborts_iff := (Except.error.injEq e _).to_iff.trans aborts
  accepted fits nothing := absurd nothing (spared fits)
  appends := by
    intro accepted
    cases accepted
  cuts := by
    intro accepted
    cases accepted
  size_iff := by
    intro accepted
    cases accepted
  bound := by
    intro accepted
    cases accepted

/-- An insertion that succeeds. -/
private theorem Reckons.of_ok {s : Segment} {disk : Disk} {d : Document} {missed : Int}
    {after : Segment × Disk} (fits : d.Fits)
    (spared : s.Overflows d → ¬Beyond (s.size + (Frame.encode d).length) s.keptSize
      (Frame.starts (s.bytes disk ++ Frame.encode d)))
    (appends : ¬s.Overflows d → after.1.bytes after.2 = s.bytes disk ++ Frame.encode d ∧
      after.1.size = s.size + (Frame.encode d).length)
    (cuts : s.Overflows d →
      ∃ place, CutsAt (s.size + (Frame.encode d).length) s.keptSize
          (Frame.starts (s.bytes disk ++ Frame.encode d)) place ∧
        after.1.bytes after.2 = (s.bytes disk ++ Frame.encode d).drop place)
    (size_iff : after.1.size = (after.1.bytes after.2).length ↔ s.Overflows d ∨ missed = 0)
    (bound : ((after.1.bytes after.2).length : Int) ≤ s.maxSize + max missed 0) :
    s.Reckons disk d missed (.ok (), after) where
  refused_iff := by
    refine iff_of_false ?_ (not_not.mpr fits)
    intro failed
    cases failed
  aborts_iff := by
    refine iff_of_false ?_ (fun stuck => spared stuck.2.1 stuck.2.2)
    intro failed
    cases failed
  accepted _ _ := rfl
  appends _ := appends
  cuts _ := cuts
  size_iff _ := size_iff
  bound _ := bound

/-- What comes of an insertion is told by what the store has missed. -/
theorem InPlace.reckons {s : Segment} {disk : Disk} (h : s.InPlace disk) {missed : Int}
    (length : ((s.bytes disk).length : Int) = s.size + missed) (d : Document) :
    s.Reckons disk d missed (s.insert d disk) := by
  have inserted := h.inserted d
  have grown : (((s.bytes disk ++ Frame.encode d).length : Nat) : Int) =
      (s.size + (Frame.encode d).length : Nat) + missed := by
    rw [List.length_append]
    omega
  have kept : s.keptSize ≤ s.maxSize := by
    rw [keptSize]
    omega
  have place := cutPlace?_cases (s.size + (Frame.encode d).length) s.keptSize
    (Frame.rising_starts (s.bytes disk ++ Frame.encode d))
  rw [Frame.starts] at place
  generalize s.insert d disk = answer at inserted ⊢
  cases inserted with
  | refused long =>
    refine .of_error (iff_of_true rfl long) (iff_of_false ?_ ?_) (fun fits => absurd fits long)
    · intro same
      cases same
    · intro stuck
      exact long stuck.1
  | stuck fits overflows none =>
    rcases place with ⟨-, beyond⟩ | ⟨n, found, -⟩
    · refine .of_error (iff_of_false ?_ (not_not.mpr fits))
        (iff_of_true rfl ⟨fits, overflows, beyond⟩) ?_
      · intro same
        cases same
      · obtain ⟨⟨n, start, past⟩, -⟩ := beyond
        have inside := Frame.lt_of_mem_scan start
        omega
    · rw [none] at found
      cases found
  | appended fits room =>
    have bytes := h.bytes_append (Frame.encode d)
    refine .of_ok fits (fun overflows => absurd overflows room) (fun _ => ⟨bytes, rfl⟩)
      (fun overflows => absurd overflows room) ?_ ?_
    · rw [bytes, or_iff_right room]
      simp only [Segment.append]
      omega
    · rw [bytes]
      simp only [Overflows] at room
      omega
  | @cut n fits overflows found =>
    have bytes := (h.append (Frame.encode d)).bytes_withLeft
      ((s.bytes disk ++ Frame.encode d).drop n)
    rcases place with ⟨none, -⟩ | ⟨n', found', cut⟩
    · rw [found] at none
      cases none
    · cases found.symm.trans found'
      refine .of_ok fits (fun _ => cut.not_beyond) (fun room => absurd overflows room)
        (fun _ => ⟨n, cut, bytes⟩) ?_ ?_
      · rw [bytes]
        exact iff_of_true rfl (.inl overflows)
      · rw [bytes, List.length_drop]
        have short := cut.short
        have within := cut.within
        omega

/-- A store that cuts its file has missed nothing then, and otherwise as much as before. -/
theorem InPlace.missed_insert {s : Segment} {disk : Disk} (h : s.InPlace disk) {before : Int}
    (length : ((s.bytes disk).length : Int) = s.size + before) (d : Document) :
    (((s.insert d disk).2.1.bytes (s.insert d disk).2.2).length : Int) =
      (s.insert d disk).2.1.size +
        if (s.insert d disk).1 = .ok () ∧ s.Overflows d then 0 else before := by
  have inserted := h.inserted d
  have bytes := h.bytes_append (Frame.encode d)
  have placed := h.append (Frame.encode d)
  have appended : (((s.append (Frame.encode d) disk).1.bytes
      (s.append (Frame.encode d) disk).2).length : Int) =
        (s.append (Frame.encode d) disk).1.size + before := by
    rw [bytes, List.length_append]
    simp only [Segment.append]
    omega
  generalize s.insert d disk = answer at inserted ⊢
  cases inserted with
  | refused =>
    rw [if_neg]
    · exact length
    · rintro ⟨accepted, -⟩
      cases accepted
  | appended _ room =>
    rw [if_neg (fun cut => room cut.2)]
    exact appended
  | cut _ overflows =>
    rw [if_pos ⟨rfl, overflows⟩, placed.bytes_withLeft]
    exact (Int.add_zero _).symm
  | stuck =>
    rw [if_neg]
    · exact appended
    · rintro ⟨accepted, -⟩
      cases accepted

end Segment

namespace Sharing

variable {w : Sharing} {side : Bool}

/-- The length of the file. -/
def length (w : Sharing) : Nat := ((w.stores false).bytes w.disk).length

/-- How many bytes one of the stores has missed after an action, if it was so many before: what the
other store has put into the file, less what that has cut off, since it has cut the file itself. -/
def missedBy (side : Bool) (w : Sharing) (before : Int) (action : Action) : Int :=
  match action with
  | .insert writer d =>
    if writer = side then
      if ((w.stores side).insert d w.disk).1 = .ok () ∧ (w.stores side).Overflows d then 0
      else before
    else before + ((w.next action).length - w.length)
  | _ => before

/-- How many bytes one of the stores has missed after some actions. -/
def missed (side : Bool) (w : Sharing) (before : Int) : List Action → Int
  | [] => before
  | action :: rest => (w.next action).missed side (w.missedBy side before action) rest

theorem length_eq (h : w.Inv) (side : Bool) :
    w.length = ((w.stores side).bytes w.disk).length := by
  rw [length, h.shares.bytes_eq false side]

theorem stores_insert (w : Sharing) (writer : Bool) (d : Document) :
    (w.next (.insert writer d)).stores =
      Function.update w.stores writer ((w.stores writer).insert d w.disk).2.1 := by
  simp only [next]

theorem disk_insert (w : Sharing) (writer : Bool) (d : Document) :
    (w.next (.insert writer d)).disk = ((w.stores writer).insert d w.disk).2.2 := by
  simp only [next]

/-- Only insertions change stores and files. -/
theorem stores_disk_next (w : Sharing) {action : Action}
    (reads : ∀ writer d, action ≠ .insert writer d) :
    (w.next action).stores = w.stores ∧ (w.next action).disk = w.disk := by
  cases action with
  | insert writer d => exact absurd rfl (reads writer d)
  | tail opener source =>
    simp only [next]
    split <;> exact ⟨rfl, rfl⟩
  | ask number => exact ⟨rfl, rfl⟩

/-- What a store knows and what it has missed are together the length of the file, after every
action. -/
theorem length_next (h : w.Inv) {before : Int}
    (known : (w.length : Int) = (w.stores side).size + before) (action : Action) :
    ((w.next action).length : Int) =
      ((w.next action).stores side).size + w.missedBy side before action := by
  by_cases writes : ∃ writer d, action = .insert writer d
  · obtain ⟨writer, d, rfl⟩ := writes
    simp only [missedBy]
    by_cases own : writer = side
    · subst own
      have here := (h.shares.inPlace writer).missed_insert (length_eq h writer ▸ known) d
      rw [if_pos rfl, length_eq (h.next (.insert writer d)) writer, stores_insert, disk_insert,
        Function.update_self]
      exact here
    · rw [if_neg own, stores_insert, Function.update_of_ne (Ne.symm own), known]
      omega
  · have reads (writer : Bool) (d : Document) : action ≠ .insert writer d :=
      fun same => writes ⟨writer, d, same⟩
    obtain ⟨stores, disk⟩ := w.stores_disk_next reads
    have missed : w.missedBy side before action = before := by
      cases action with
      | insert writer d => exact absurd rfl (reads writer d)
      | tail | ask => rfl
    rw [length, stores, disk, missed]
    exact known

theorem length_run (h : w.Inv) {before : Int}
    (known : (w.length : Int) = (w.stores side).size + before) (actions : List Action) :
    ((w.run actions).length : Int) =
      ((w.run actions).stores side).size + w.missed side before actions := by
  induction actions generalizing w before with
  | nil => exact known
  | cons action rest ih => exact ih (h.next action) (length_next h known action)

/-- No store has missed more than the other one knows of. -/
theorem length_le_next (h : w.Inv)
    (le : w.length ≤ (w.stores false).size + (w.stores true).size) (action : Action) :
    (w.next action).length ≤
      ((w.next action).stores false).size + ((w.next action).stores true).size := by
  by_cases writes : ∃ writer d, action = .insert writer d
  · obtain ⟨writer, d, rfl⟩ := writes
    have known : (w.length : Int) =
        (w.stores writer).size + (w.length - (w.stores writer).size) := by omega
    have here := length_next h known (.insert writer d)
    simp only [missedBy, if_true] at here
    have other : (w.next (.insert writer d)).stores (!writer) = w.stores (!writer) := by
      rw [stores_insert, Function.update_of_ne (Bool.not_ne_self writer)]
    have both : ((w.next (.insert writer d)).length : Int) ≤
        ((w.next (.insert writer d)).stores writer).size + (w.stores (!writer)).size := by
      have le : w.length ≤ (w.stores writer).size + (w.stores (!writer)).size := by
        cases writer
        · exact le
        · exact Nat.add_comm _ _ ▸ le
      split at here <;> omega
    rw [← other] at both
    cases writer <;> simp only [Bool.not_false, Bool.not_true] at both <;> omega
  · obtain ⟨stores, disk⟩ := w.stores_disk_next fun writer d same => writes ⟨writer, d, same⟩
    rw [length, stores, disk]
    exact le

theorem length_le_run (h : w.Inv)
    (le : w.length ≤ (w.stores false).size + (w.stores true).size) (actions : List Action) :
    (w.run actions).length ≤
      ((w.run actions).stores false).size + ((w.run actions).stores true).size := by
  induction actions generalizing w with
  | nil => exact le
  | cons action rest ih => exact ih (h.next action) (length_le_next h le action)

/-- A store is opened on the file that another one uses alone, and both are used in any order. What
a store says of its file is wrong by what it has missed: by what the other one has put into the file
since, less what that has cut off, until the store cuts the file itself. A store that has missed
nothing accepts every document that fits, knows the end of the file afterwards, and leaves the file
within its bound; otherwise the file can be longer by what was missed, the end is known only after a
cut, and the store aborts when it looks for a place to cut and meets a frame beyond the end that it
reckons with. -/
theorem stores_reckon {first second : Segment} {maxSize : Nat} {disk disk' : Disk}
    (alone : first.Sole disk)
    (opened : Segment.openAt first.path maxSize disk = (.ok second, disk'))
    (actions : List Action) :
    let w := (start first second disk').run actions
    w.length ≤ (w.stores false).size + (w.stores true).size ∧
      ∀ side,
        let missed := (start first second disk').missed side 0 actions
        (w.length : Int) = (w.stores side).size + missed ∧
          ∀ d, (w.stores side).Reckons w.disk d missed ((w.stores side).insert d w.disk) := by
  intro w
  have inv : (start first second disk').Inv := .start alone.inPlace alone.known opened
  have knows (side : Bool) :
      (start first second disk').length = ((start first second disk').stores side).size := by
    rw [alone.inPlace.openAt_eq maxSize] at opened
    cases opened
    cases side
    · exact alone.size_eq.symm
    · rfl
  refine ⟨length_le_run inv (knows false ▸ Nat.le_add_right _ _) actions, ?_⟩
  intro side missed
  have begun : ((start first second disk').length : Int) =
      ((start first second disk').stores side).size + 0 := by rw [knows side, Int.add_zero]
  have known := length_run inv begun actions
  refine ⟨known, ?_⟩
  intro d
  rw [length_eq (inv.run actions) side] at known
  exact ((inv.run actions).shares.inPlace side).reckons known d

/-- Both stores have put a frame into the file. With its next one the first store would cut the
file, of whose end it has missed the frame of the other one: it aborts. -/
theorem stores_reckon_until_abort :
    let t : Instant := ⟨0, 0, by decide, by decide, by decide, by decide⟩
    let d (serial : UInt64) : Document := ⟨t, serial, .null⟩
    let first : Segment := ⟨⟨"traces"⟩, 0, 0, 80, 0⟩
    let disk : Disk := ⟨(Disk.ofFile []).volume, [0]⟩
    let actions : List Action := [.insert true (d 10), .insert false (d 1)]
    ∃ second disk', first.Sole disk ∧
      Segment.openAt first.path 80 disk = (.ok second, disk') ∧
      let w := (start first second disk').run actions
      let missed := (start first second disk').missed false 0 actions
      let answer := (w.stores false).insert (d 2) w.disk
      (w.stores false).Reckons w.disk (d 2) missed answer ∧ w.length = 125 ∧ missed = 63 ∧
        answer.1 = .error .frameBeyondEnd := by
  intro t d first disk actions
  have alone : first.Sole disk := ⟨⟨Disk.file_ofFile []⟩, rfl, by decide⟩
  let second : Segment := ⟨⟨"traces"⟩, 0, 0, 80, 1⟩
  let both : Disk := ⟨disk.volume, [0, 0]⟩
  have opened : Segment.openAt first.path 80 disk = (.ok second, both) := alone.inPlace.openAt_eq 80
  refine ⟨second, both, alone, opened, ?_⟩
  obtain ⟨known, reckons⟩ := (stores_reckon alone opened actions).2 false
  -- There is room for one frame of each store, as far as they know.
  let one := second.append (Frame.encode (d 10)) both
  let two := first.append (Frame.encode (d 1)) one.2
  have put : second.insert (d 10) both = (.ok (), one) :=
    Segment.insert_of_room both (by decide +kernel) (by decide +kernel)
  have put' : first.insert (d 1) one.2 = (.ok (), two) :=
    Segment.insert_of_room one.2 (by decide +kernel) (by decide +kernel)
  have run : (start first second both).run actions =
      ⟨Function.update (Function.update (start first second both).stores true one.1) false two.1,
        two.2, []⟩ := by
    simp [actions, Sharing.run, next, start, put, put']
  have length : (two.1.bytes two.2).length = 125 := by decide +kernel
  have size : two.1.size = 62 := by decide +kernel
  have beyond : Segment.Beyond (two.1.size + (Frame.encode (d 2)).length) two.1.keptSize
      (Frame.starts (two.1.bytes two.2 ++ Frame.encode (d 2))) := by
    unfold Segment.Beyond
    decide +kernel
  simp only [run, Sharing.length, Function.update_self, length, size] at known reckons ⊢
  refine ⟨reckons (d 2), trivial, by omega, ?_⟩
  exact (reckons (d 2)).aborts_iff.mpr ⟨by decide +kernel, by decide +kernel, beyond⟩

end Sharing

end TraceJournal
