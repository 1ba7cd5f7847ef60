import TraceJournal.Journal.Writer
import TraceJournal.Proofs.Journal.Generation

/-!
# What a write comes to

A writer knows the serial number assigned last, or looks it up; it takes the number behind that one,
and stores the record under it. Each of the calls that it makes can fail.
-/

namespace TraceJournal

/-- Looking up the highest serial number fails, or answers what the store says. -/
theorem Link.lastSerial_cases (link : Link) :
    (∃ e n, link.lastSerial = (.error e, link.arm .lastSerial n)) ∨
      link.lastSerial = (link.store.lastSerial, link) :=
  attempt_cases .lastSerial (fun link => (link.store.lastSerial, link)) link

theorem Link.lastSerial_keeps (link : Link) : link.lastSerial.2.store = link.store :=
  (attempt_keeps .lastSerial (·.store.lastSerial) link).1

/-- What is answered is what the store tells. -/
theorem Link.told_of_lastSerial {link link' : Link} {highest : Option UInt64}
    (answer : link.lastSerial = (.ok highest, link')) : link.store.lastSerial = .ok highest := by
  rcases link.lastSerial_cases with ⟨e, n, failed⟩ | made
  · rw [failed] at answer
    cases answer
  · rw [made] at answer
    exact (Prod.mk.inj answer).1

namespace Writer

/-- The serial number that the writer goes on from: the one it assigned last, or else the highest
one in the store. -/
inductive Seeded (w : Writer) (link : Link) : UInt64 → Link → Prop where
  | known {last : UInt64} : w.serial = some last → Seeded w link last link
  | found {highest : Option UInt64} {link' : Link} :
    w.serial = none → link.lastSerial = (.ok highest, link') →
      Seeded w link (highest.getD 0) link'

variable {w : Writer} {link : Link} {r : Record}

theorem Seeded.store_eq {last : UInt64} {link' : Link} (h : w.Seeded link last link') :
    link'.store = link.store := by
  cases h with
  | known => rfl
  | found _ answer =>
    rw [← link.lastSerial_keeps, answer]

/-- Over a link without failures, looking up the number changes nothing. -/
theorem Seeded.link_eq {last : UInt64} {link' : Link} (h : w.Seeded link last link')
    (reliable : link.Reliable) : link' = link := by
  cases h with
  | known => rfl
  | found _ answer =>
    have asked : link.lastSerial = (link.store.lastSerial, link) := reliable.attempt_eq _ _
    rw [asked] at answer
    exact (Prod.mk.inj answer).2.symm

/-- What a write comes to. -/
inductive Wrote (r : Record) (w : Writer) (link : Link) :
    Except JournalError Position × Writer × Link → Prop where
  /-- There was no serial number for an earlier record. -/
  | broken : w.unusable = true → Wrote r w link (.error .unusable, w, link)
  /-- The look-up fails, and takes no serial number. -/
  | unseeded {e : StoreError} {link' : Link} :
    w.unusable = false → w.serial = none → link.lastSerial = (.error e, link') →
      Wrote r w link (.error (.store e), w, link')
  /-- No serial number is left. -/
  | exhausted {last : UInt64} {link' : Link} :
    w.unusable = false → w.Seeded link last link' → UInt64.size ≤ last.toNat + 1 →
      Wrote r w link (.error .noSerial, { w with unusable := true }, link')
  /-- The insertion fails, and takes one serial number. -/
  | refused {last : UInt64} {link' link'' : Link} {e : StoreError} :
    w.unusable = false → w.Seeded link last link' → last.toNat + 1 < UInt64.size →
      link'.insert (.ofRecord (r.withSerial (last + 1))) = (.error e, link'') →
      Wrote r w link (.error (.store e), { w with serial := some (last + 1) }, link'')
  | stored {last : UInt64} {link' link'' : Link} :
    w.unusable = false → w.Seeded link last link' → last.toNat + 1 < UInt64.size →
      link'.insert (.ofRecord (r.withSerial (last + 1))) = (.ok (), link'') →
      Wrote r w link
        (.ok ⟨r.time, last + 1⟩,
          { w with serial := some (last + 1), written := w.written + 1 }, link'')

theorem nextSerial_seeded {last : UInt64} {link' : Link} (usable : w.unusable = false)
    (seeded : w.Seeded link last link') :
    w.nextSerial link = ((w.takeAfter last).1, (w.takeAfter last).2, link') := by
  cases seeded with
  | known known => simp only [nextSerial, usable, known, Bool.false_eq_true, if_false]
  | found unknown answer =>
    simp only [nextSerial, usable, unknown, answer, Bool.false_eq_true, if_false]

/-- A writer knows the number to go on from, or looks it up, which may fail. -/
theorem seeded_or_failed (w : Writer) (link : Link) :
    (∃ last link', w.Seeded link last link') ∨
      ∃ e link', w.serial = none ∧ link.lastSerial = (.error e, link') := by
  cases known : w.serial with
  | some last => exact .inl ⟨last, link, .known known⟩
  | none =>
    rcases answer : link.lastSerial with ⟨result, link'⟩
    cases result with
    | ok highest => exact .inl ⟨_, link', .found known answer⟩
    | error e => exact .inr ⟨e, link', rfl, rfl⟩

theorem nextSerial_unusable (broken : w.unusable = true) :
    w.nextSerial link = (.error .unusable, w, link) := by
  rw [nextSerial, if_pos broken]

theorem nextSerial_unseeded {e : StoreError} {link' : Link} (usable : w.unusable = false)
    (unknown : w.serial = none) (answer : link.lastSerial = (.error e, link')) :
    w.nextSerial link = (.error (.store e), w, link') := by
  simp only [nextSerial, usable, unknown, answer, Bool.false_eq_true, if_false]

/-- The next number comes after the one that the writer goes on from. -/
theorem seeded_of_nextSerial {n : UInt64} (h : (w.nextSerial link).1 = .ok n) :
    w.unusable = false ∧ ∃ last link', w.Seeded link last link' ∧
      last.toNat + 1 < UInt64.size ∧ n = last + 1 := by
  by_cases broken : w.unusable = true
  · rw [nextSerial_unusable broken] at h
    cases h
  · have usable : w.unusable = false := by simpa using broken
    rcases w.seeded_or_failed link with ⟨last, link', seeded⟩ | ⟨e, link', unknown, answer⟩
    · rw [nextSerial_seeded usable seeded] at h
      by_cases room : last.toNat + 1 < UInt64.size
      · simp only [takeAfter, if_pos room] at h
        exact ⟨usable, last, link', seeded, room, (Except.ok.inj h).symm⟩
      · simp only [takeAfter, if_neg room] at h
        cases h
    · rw [nextSerial_unseeded usable unknown answer] at h
      cases h

theorem wrote (r : Record) (w : Writer) (link : Link) : w.Wrote r link (w.write r link) := by
  by_cases broken : w.unusable = true
  · rw [write, nextSerial_unusable broken]
    exact .broken broken
  · have usable : w.unusable = false := by simpa using broken
    rcases w.seeded_or_failed link with ⟨last, link', seeded⟩ | ⟨e, link', unknown, answer⟩
    · rw [write, nextSerial_seeded usable seeded]
      by_cases room : last.toNat + 1 < UInt64.size
      · simp only [takeAfter, if_pos room]
        rcases answer : link'.insert (.ofRecord (r.withSerial (last + 1))) with ⟨result, link''⟩
        cases result with
        | ok _ => exact .stored usable seeded room answer
        | error e => exact .refused usable seeded room answer
      · simp only [takeAfter, if_neg room]
        exact .exhausted usable seeded (Nat.le_of_not_lt room)
    · rw [write, nextSerial_unseeded usable unknown answer]
      exact .unseeded usable unknown answer

/-- A position that is answered has the record's time and the next serial number. -/
theorem nextSerial_of_write {p : Position} (h : (w.write r link).1 = .ok p) :
    p.time = r.time ∧ (w.nextSerial link).1 = .ok p.serial := by
  rw [write] at h
  generalize w.nextSerial link = next at h ⊢
  obtain ⟨e | serial, w', link'⟩ := next
  · cases h
  · simp only at h
    generalize link'.insert (.ofRecord (r.withSerial serial)) = inserted at h
    obtain ⟨e | _, link''⟩ := inserted
    · cases h
    · cases h
      exact ⟨rfl, rfl⟩

/-- Over a link without failures, a write that is answered with a position has done nothing to the
store but insert the record's document under that. -/
theorem insert_of_write (reliable : link.Reliable) {w' : Writer} {p : Position} {link' : Link}
    (h : w.write r link = (.ok p, w', link')) :
    p.time = r.time ∧ link.insert (.ofRecord (r.withSerial p.serial)) = (.ok (), link') := by
  have wrote := w.wrote r link
  rw [h] at wrote
  cases wrote with
  | stored _ seeded _ inserted =>
    obtain rfl := seeded.link_eq reliable
    exact ⟨rfl, inserted⟩

theorem handle_of_disabled (off : w.enabled = false) :
    w.handle r link = (.ok none, w, link) := by
  rw [handle, off]
  rfl

/-- A writer that is enabled handles a record by writing it. -/
inductive Handled (r : Record) (w : Writer) (link : Link) :
    Except HandlerError (Option JournalError) × Writer × Link → Prop where
  | stored {p : Position} :
    (w.write r link).1 = .ok p → Handled r w link (.ok none, (w.write r link).2)
  | counted {e : JournalError} :
    (w.write r link).1 = .error e → e.panic? = none →
      Handled r w link
        (.ok (some e),
          { (w.write r link).2.1 with failed := (w.write r link).2.1.failed + 1 },
          (w.write r link).2.2)
  | brokenOff {e : JournalError} {text : String} :
    (w.write r link).1 = .error e → e.panic? = some text →
      Handled r w link (.error (.panicked text), (w.write r link).2)

theorem handled (r : Record) (on : w.enabled = true) (link : Link) :
    w.Handled r link (w.handle r link) := by
  rw [handle, if_pos on]
  rcases answer : w.write r link with ⟨result, writer, link'⟩
  have result_eq : (w.write r link).1 = result := congrArg (·.1) answer
  cases result with
  | ok p =>
    have stored := Handled.stored result_eq
    rwa [answer] at stored
  | error e =>
    cases panics : e.panic? with
    | none =>
      have counted := Handled.counted result_eq panics
      simp only [panics]
      rwa [answer] at counted
    | some text =>
      have brokenOff := Handled.brokenOff result_eq panics
      simp only [panics]
      rwa [answer] at brokenOff

/-! ## On a store in memory -/

/-- The serial number that a writer on a store in memory goes on from. -/
def base (m : MemoryStore) (w : Writer) : UInt64 := w.serial.getD (m.lastSerial.getD 0)

variable {m : MemoryStore}

theorem Seeded.of_memory (reliable : link.Reliable) (memory : link.store = .memory m)
    {last : UInt64} {link' : Link} (h : w.Seeded link last link') :
    last = w.base m ∧ link' = link := by
  refine ⟨?_, h.link_eq reliable⟩
  cases h with
  | known serial => rw [base, serial, Option.getD_some]
  | found unknown answer =>
    have told := Link.told_of_lastSerial answer
    rw [memory] at told
    cases told
    rw [base, unknown, Option.getD_none]

/-- What handling a record comes to on a store in memory, over a link without failures. -/
inductive HandledInMemory (r : Record) (w : Writer) (link : Link) (m : MemoryStore) :
    Except HandlerError (Option JournalError) × Writer × Link → Prop where
  | stored :
    w.unusable = false → (w.base m).toNat + 1 < UInt64.size →
      HandledInMemory r w link m
        (.ok none, { w with serial := some (w.base m + 1), written := w.written + 1 },
          { link with store := .memory (m.insert (.ofRecord (r.withSerial (w.base m + 1)))) })
  /-- No serial number is left, or there was none before. -/
  | brokenOff {e : HandlerError} :
    (w.unusable = true ∨ UInt64.size ≤ (w.base m).toNat + 1) →
      HandledInMemory r w link m (.error e, { w with unusable := true }, link)

/-- A writer that is enabled stores every record as long as there are serial numbers. -/
theorem handledInMemory (r : Record) (on : w.enabled = true) (reliable : link.Reliable)
    (memory : link.store = .memory m) : w.HandledInMemory r link m (w.handle r link) := by
  have wrote := w.wrote r link
  rw [handle, if_pos on]
  generalize w.write r link = answer at wrote ⊢
  cases wrote with
  | broken unusable =>
    have same : { w with unusable := true } = w := by rw [← unusable]
    have brokenOff : w.HandledInMemory r link m
        (.error (.panicked JournalError.unusable.message), { w with unusable := true }, link) :=
      .brokenOff (.inl unusable)
    rwa [same] at brokenOff
  | unseeded _ _ answer =>
    have asked : link.lastSerial = (link.store.lastSerial, link) := reliable.attempt_eq _ _
    rw [asked, memory] at answer
    cases answer
  | exhausted _ seeded none_left =>
    obtain ⟨rfl, rfl⟩ := seeded.of_memory reliable memory
    exact .brokenOff (.inr none_left)
  | refused _ seeded _ answer =>
    obtain ⟨rfl, rfl⟩ := seeded.of_memory reliable memory
    rw [reliable.insert_eq, memory] at answer
    cases answer
  | stored usable seeded room answer =>
    obtain ⟨rfl, rfl⟩ := seeded.of_memory reliable memory
    rw [reliable.insert_eq, memory] at answer
    cases answer
    exact .stored usable room

end Writer

end TraceJournal
