import TraceJournal.Proofs.Journal.Numbering
import TraceJournal.Proofs.Store.Archive

/-!
# Writers that begin on an archive

A writer that knows no serial number yet goes on from the highest one that the store tells. That
number is not below those of all documents that the store ever accepted as long as a document with
the highest number of all is still found; once it is gone, the numbers of the next writer may be
those of documents that were accepted before.
-/

namespace TraceJournal

namespace Writer

variable {w : Writer} {link : Link} {n : UInt64}

/-- The serial numbers that a writer takes for some records, each written over the link as it is
then. -/
def numbers (w : Writer) : List (Record × Link) → List UInt64
  | [] => []
  | (r, link) :: rest =>
    (w.nextSerial link).1.toOption.toList ++ (w.write r link).2.1.numbers rest

theorem serial_write (r : Record) (w : Writer) (link : Link) :
    (w.write r link).2.1.serial = (w.nextSerial link).2.1.serial := by
  rw [write]
  rcases w.nextSerial link with ⟨e | serial, w', link'⟩
  · rfl
  · simp only
    rcases link'.insert (.ofRecord (r.withSerial serial)) with ⟨e | _, _⟩ <;> rfl

/-- A writer that knows a number takes none that is not above it, and knows one then, too. -/
theorem serial_nextSerial (known : ∃ last, w.serial = some last ∧ n ≤ last) (link : Link) :
    (∀ m, (w.nextSerial link).1 = .ok m → n < m) ∧
      ∃ last, (w.nextSerial link).2.1.serial = some last ∧ n ≤ last := by
  obtain ⟨last, serial, le⟩ := known
  -- Without a number there is nothing to show.
  have refused (e : JournalError) (m : UInt64) (taken : .error e = Except.ok m) : n < m := by
    cases taken
  by_cases broken : w.unusable = true
  · rw [nextSerial_unusable broken]
    exact ⟨refused _, last, serial, le⟩
  · have usable : w.unusable = false := by simpa using broken
    rw [nextSerial_seeded usable (.known serial)]
    by_cases room : last.toNat + 1 < UInt64.size
    · have above : n < last + 1 := Std.lt_of_le_of_lt le (lt_add_one_of_toNat room)
      simp only [takeAfter, if_pos room]
      exact ⟨fun m taken => Except.ok.inj taken ▸ above, _, rfl, Std.le_of_lt above⟩
    · simp only [takeAfter, if_neg room]
      exact ⟨refused _, last, serial, le⟩

/-- All numbers that such a writer takes are above that number. -/
theorem lt_of_mem_numbers (known : ∃ last, w.serial = some last ∧ n ≤ last)
    {calls : List (Record × Link)} : ∀ m ∈ w.numbers calls, n < m := by
  induction calls generalizing w with
  | nil => nofun
  | cons call rest ih =>
    obtain ⟨r, link⟩ := call
    obtain ⟨above, still⟩ := serial_nextSerial known link
    rw [← serial_write r] at still
    refine List.forall_mem_append.mpr ⟨?_, ih still⟩
    intro m taken
    cases answer : (w.nextSerial link).1 with
    | ok number =>
      rw [answer] at taken
      rw [List.mem_singleton.mp taken]
      exact above number answer
    | error e =>
      rw [answer] at taken
      cases taken

/-- A writer that knows no number goes on from the highest one that the store tells, and knows that
it did so. -/
theorem nextSerial_of_told {highest : Option UInt64} (unknown : w.serial = none)
    (told : link.store.lastSerial = .ok highest) (h : (w.nextSerial link).1 = .ok n) :
    (highest.getD 0).toNat + 1 < UInt64.size ∧ n = highest.getD 0 + 1 ∧
      (w.nextSerial link).2.1.serial = some n := by
  obtain ⟨usable, last, link', seeded, room, rfl⟩ := seeded_of_nextSerial h
  have kept : (w.nextSerial link).2.1.serial = some (last + 1) := by
    rw [nextSerial_seeded usable seeded]
    simp only [takeAfter, if_pos room]
  cases seeded with
  | known known => cases unknown.symm.trans known
  | found _ answer =>
    have same := told.symm.trans (Link.told_of_lastSerial answer)
    cases same
    exact ⟨room, rfl, kept⟩

end Writer

namespace Archive

/-- What the store of an archive tells about the serial numbers of all accepted documents, and what
a writer makes of it. -/
structure Tells (a : Archive) (highest : Option UInt64) : Prop where
  told : a.store.lastSerial = .ok highest
  reached : ∀ n, highest = some n → ∃ d ∈ a.accepted, d.serial = n
  covers_iff : (∃ n, a.Covers n) ↔ a.FindsHighest
  /-- After a document that the store keeps, the number is not below that of the document, and
  covers all if the document's does. -/
  latest : ∀ d, (a.store.insert d).1 = .ok () → a.store.KeepsLatest d →
    (∃ n, (a.next (.insert d)).store.lastSerial = .ok (some n) ∧ d.serial ≤ n) ∧
      ((∀ e ∈ a.accepted, e.serial ≤ d.serial) → (a.next (.insert d)).Covers d.serial)
  /-- An insertion that pushes nothing out leaves the highest number found, unless the document has
  a higher one and is not found itself. -/
  keeping : ∀ d, a.store.Keeps d →
    ((a.store.finds? d).isSome ∨ ∃ e ∈ a.accepted, d.serial ≤ e.serial) →
      a.FindsHighest → (a.next (.insert d)).FindsHighest
  /-- A writer that knows no number takes the next one, if there is one. -/
  seeds : ∀ (w : Writer) (link : Link), link.store = a.store → link.failures .lastSerial = 0 →
    w.serial = none → w.unusable = false → (highest.getD 0).toNat + 1 < UInt64.size →
      (w.nextSerial link).1 = .ok (highest.getD 0 + 1)
  /-- The number that such a writer takes is above those of all accepted documents exactly if a
  document with the highest of all is found, or none has a number but zero; and whatever happens
  between its writes, its later numbers are higher. -/
  above_iff : ∀ (w : Writer) (link : Link) (n : UInt64), link.store = a.store → w.serial = none →
    (w.nextSerial link).1 = .ok n →
      ((∀ d ∈ a.accepted, d.serial < n) ↔ a.FindsHighest ∨ ∀ d ∈ a.accepted, d.serial = 0) ∧
      ∀ r calls, ∀ m ∈ (w.write r link).2.1.numbers calls, n < m

theorem Has.tells {a : Archive} {kept : List Document} (h : a.Has kept) :
    a.Tells (Document.highestSerial? (kept.filterMap a.store.finds?)) where
  told := h.retains.lastSerial_eq
  reached n highest := h.exists_of_lastSerial (highest ▸ h.retains.lastSerial_eq)
  covers_iff := h.covers_iff
  latest _ accepted keeps :=
    ⟨h.exists_lastSerial_insert accepted keeps, h.covers_insert accepted keeps⟩
  keeping _ keeps finds highest := h.findsHighest_insert keeps finds highest
  seeds w link same answers unknown usable room := by
    have told : link.lastSerial = (a.store.lastSerial, link) := by
      rw [Link.lastSerial, Link.attempt, answers, same]
    rw [h.retains.lastSerial_eq] at told
    rw [Writer.nextSerial_seeded usable (.found unknown told), Writer.takeAfter, if_pos room]
  above_iff w link n same unknown taken := by
    have told := h.retains.lastSerial_eq
    generalize Document.highestSerial? (kept.filterMap a.store.finds?) = highest at told
    have there : link.store.lastSerial = .ok highest := by rw [same, told]
    obtain ⟨room, rfl, taken⟩ := Writer.nextSerial_of_told unknown there taken
    constructor
    · rw [← h.le_getD_iff told]
      exact forall₂_congr fun d _ => lt_add_one_iff_of_toNat room
    · intro r calls
      refine Writer.lt_of_mem_numbers ⟨_, ?_, Std.le_refl _⟩
      rw [Writer.serial_write, taken]

/-- Whatever is inserted into a store that is full from time to time, and cleared or opened again:
the highest serial number that it tells is one among all accepted documents, and covers them exactly
as long as one with the highest number is found. Then it is not below any that was told before, and
a new writer only takes numbers above all of them. -/
theorem covers_while_highest_found {store : Store} {docs : List Document}
    (retains : store.Retains docs) (before after : List Action) :
    let earlier := (Archive.mk store docs).run before
    let a := (Archive.mk store docs).run (before ++ after)
    ∃ highest, a.Tells highest ∧
      (a.FindsHighest → ∀ m, earlier.store.lastSerial = .ok (some m) →
        ∃ n, highest = some n ∧ m ≤ n) := by
  intro earlier a
  have start : Has ⟨store, docs⟩ docs := ⟨retains, List.suffix_rfl⟩
  obtain ⟨⟨left, has⟩, -⟩ := start.run before
  obtain ⟨⟨kept, later⟩, grown⟩ := has.run after
  rw [← run_append] at later grown
  refine ⟨_, later.tells, ?_⟩
  intro found m tells
  obtain ⟨n, told, above⟩ := later.covers_iff.mpr found
  obtain ⟨d, member, rfl⟩ := has.exists_of_lastSerial tells
  rw [later.retains.lastSerial_eq] at told
  exact ⟨n, Except.ok.inj told, above d (grown.subset member)⟩

/-- A store for one document, of which the sentinel of a reader pushes out the first: the next
writer takes its number once more. -/
theorem covers_while_highest_found_until_sentinel :
    let t : Instant := ⟨0, 0, by decide, by decide, by decide, by decide⟩
    let first := (Archive.mk (.memory (.bounded 1)) []).run [.insert ⟨t, 1, .null⟩]
    let a := first.run [.insert (.ofRecord (.sentinel t))]
    first.FindsHighest ∧ ¬a.FindsHighest ∧
      ((Writer.create true).nextSerial (.reliable a.store)).1 = .ok 1 := by
  intro t first a
  have empty : (Store.memory (.bounded 1)).Retains [] := rfl
  obtain ⟨highest, tells, -⟩ := covers_while_highest_found empty [.insert ⟨t, 1, .null⟩]
    [.insert (.ofRecord (.sentinel t))]
  have told : highest = some 0 := Except.ok.inj (tells.told.symm.trans rfl)
  refine ⟨⟨_, rfl, ⟨t, 1, .null⟩, List.mem_cons_self, ?_⟩, ?_, by decide +kernel⟩
  · decide
  · intro found
    obtain ⟨n, covers, above⟩ := tells.covers_iff.mpr found
    have zero : n = 0 := by
      rw [tells.told, told] at covers
      cases covers
      rfl
    have le : 1 ≤ n := above ⟨t, 1, .null⟩ (by decide)
    rw [zero] at le
    exact absurd le (by decide)

end Archive

end TraceJournal
