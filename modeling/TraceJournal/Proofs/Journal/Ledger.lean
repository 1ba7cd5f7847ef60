import TraceJournal.Proofs.Journal.Writing
import TraceJournal.Proofs.Segment.Accepted
import TraceJournal.Proofs.Segment.Sole

/-!
# What a writer does to a file of its own

A writer is handed records, one after the other, and stores them in a segment file that nobody else
uses. Its counts tell of every record what has become of it, but for those on which it broke off,
because no serial number was left. What it has stored stands behind what was in the file before,
under rising numbers.
-/

namespace TraceJournal

/-! ## The file -/

namespace Segment

/-- A store alone with its file has put some documents behind what was there before, and nobody has
changed anything else; what it has cut off is not told. -/
structure Grown (s : Segment) (disk : Disk) (docs : List Document) (s' : Segment) (disk' : Disk) :
    Prop where
  sole : s'.Sole disk'
  number_eq : s'.number = s.number
  cutsOf_le : disk.cutsOf s.number ≤ disk'.cutsOf s.number
  fits : ∀ d ∈ docs, d.Fits
  bytes_eq : disk'.cutsOf s.number = disk.cutsOf s.number →
    s'.bytes disk' = s.bytes disk ++ Frame.encodeAll docs

namespace Grown

variable {s s' : Segment} {disk disk' : Disk} {docs : List Document}

theorem refl (sole : s.Sole disk) : Grown s disk [] s disk where
  sole := sole
  number_eq := rfl
  cutsOf_le := Nat.le_refl _
  fits := List.forall_mem_nil _
  bytes_eq _ := (List.append_nil _).symm

/-- A document that is accepted comes behind the others. -/
theorem insert (h : Grown s disk docs s' disk') {d : Document}
    (accepted : (s'.insert d disk').1 = .ok ()) :
    Grown s disk (docs ++ [d]) (s'.insert d disk').2.1 (s'.insert d disk').2.2 := by
  have inserted := h.sole.inPlace.inserted d
  have sole := h.sole.insert d
  have more := inserted.cutsOf_le s.number
  have cut (overflows : s'.Overflows d) := inserted.cutsOf_eq accepted overflows h.sole.known
  have bytes := h.sole.inPlace.bytes_append (Frame.encode d)
  have number := inserted.number_eq
  generalize s'.insert d disk' = answer at inserted accepted sole more cut number ⊢
  refine ⟨sole, number.trans h.number_eq, Nat.le_trans h.cutsOf_le more, ?_, ?_⟩
  · refine List.forall_mem_append.mpr ⟨h.fits, List.forall_mem_singleton.mpr ?_⟩
    cases inserted with
    | refused => cases accepted
    | appended fits | cut fits | stuck fits => exact fits
  · intro uncut
    have before : disk'.cutsOf s.number = disk.cutsOf s.number :=
      Nat.le_antisymm (uncut ▸ more) h.cutsOf_le
    have room : ¬s'.Overflows d := by
      intro overflows
      have counted := cut overflows
      rw [h.number_eq] at counted
      omega
    cases inserted with
    | refused => cases accepted
    | appended =>
      rw [bytes, h.bytes_eq before, Frame.encodeAll_append, Frame.encodeAll_cons,
        Frame.encodeAll_nil, List.append_nil, List.append_assoc]
    | cut _ overflows => exact absurd overflows room
    | stuck _ overflows => exact absurd overflows room

/-- What stood in a file of whole frames is found before what became of the documents, as long as
nothing was cut off. -/
theorem held_eq (h : Grown s disk docs s' disk') {passed : List (Nat × Document)}
    (whole : Frame.Passes (s.bytes disk) 0 passed (s.bytes disk).length)
    (uncut : disk'.cutsOf s.number = disk.cutsOf s.number) :
    s'.held disk' = s.held disk ++ docs.filterMap Document.reread? := by
  rw [held, h.bytes_eq uncut, Frame.documents_append_of_passes whole,
    Frame.documents_encodeAll_of_fits h.fits]
  rfl

end Grown

/-- The serial number from which a writer on the store goes on. -/
def base (s : Segment) (disk : Disk) : UInt64 := (Document.highestSerial? (s.held disk)).getD 0

end Segment

/-! ## The link -/

theorem JournalError.panic?_store {e : StoreError} (h : e ≠ .frameBeyondEnd) :
    (store e).panic? = none := by
  cases e with
  | frameBeyondEnd => exact absurd rfl h
  | _ => rfl

/-- A store alone with its file can always cut it. -/
theorem Segment.Sole.ne_frameBeyondEnd {s : Segment} {disk : Disk} (h : s.Sole disk) {d : Document}
    {e : StoreError} (failed : (s.insert d disk).1 = .error e) : e ≠ .frameBeyondEnd := by
  have inserted := h.inPlace.inserted d
  generalize s.insert d disk = answer at inserted failed
  cases inserted with
  | refused =>
    cases failed
    exact nofun
  | appended | cut => cases failed
  | stuck _ _ none =>
    obtain ⟨place, found, -⟩ := h.exists_cut d
    rw [found] at none
    cases none

namespace Link

variable {link : Link} {s : Segment} {disk : Disk}

/-- A call fails because the link does, which uses one failure up, or it is made. -/
theorem attempt_counts {α : Type} (call : Call) (action : Link → Except StoreError α × Link)
    (link : Link) :
    (∃ e link', attempt call action link = (.error e, link') ∧ e ≠ .frameBeyondEnd ∧
        link'.store = link.store ∧ link.failures call = link'.failures call + 1 ∧
        ∀ other, other ≠ call → link'.failures other = link.failures other) ∨
      link.failures call = 0 ∧ attempt call action link = action link := by
  cases fails : link.failures call with
  | zero => exact .inr ⟨rfl, by rw [attempt, fails]⟩
  | succ n =>
    refine .inl ⟨.unavailable (call.name ++ " failed"), link.arm call n, by rw [attempt, fails],
      ?_, rfl, ?_, ?_⟩
    · intro same
      cases same
    · simp only [arm, if_pos]
    · intro other different
      simp only [arm, if_neg different]

/-- Each look-up on a segment store fails because the link does, or answers the highest number in the
file. -/
theorem lastSerial_of_segment (segment : link.store = .segment s disk) (sole : s.Sole disk) :
    (∃ e link', link.lastSerial = (.error e, link') ∧ e ≠ .frameBeyondEnd ∧
        link'.store = link.store ∧
        link.failures .lastSerial = link'.failures .lastSerial + 1) ∨
      link.failures .lastSerial = 0 ∧
        link.lastSerial = (.ok (Document.highestSerial? (s.held disk)), link) := by
  have found : s.lastSerial disk = .ok (Document.highestSerial? (s.held disk)) :=
    sole.inPlace.lastSerial_eq
  rcases attempt_counts .lastSerial (fun link => (link.store.lastSerial, link)) link with
    ⟨e, link', failed, known, store, fewer, -⟩ | ⟨none_fails, made⟩
  · exact .inl ⟨e, link', failed, known, store, fewer⟩
  · refine .inr ⟨none_fails, made.trans ?_⟩
    rw [segment, Store.lastSerial, found]

theorem insert_counts (d : Document) (link : Link) :
    (∃ e link', link.insert d = (.error e, link') ∧ e ≠ .frameBeyondEnd ∧
        link'.store = link.store ∧ link.failures .insert = link'.failures .insert + 1 ∧
        ∀ other, other ≠ .insert → link'.failures other = link.failures other) ∨
      link.failures .insert = 0 ∧ link.insert d =
        ((link.store.insert d).1, { link with store := (link.store.insert d).2 }) :=
  attempt_counts .insert _ link

/-- An insertion into a segment store puts the document into the file, or changes nothing. No look-up
fails more often or less for that. -/
theorem insert_of_segment (segment : link.store = .segment s disk) (sole : s.Sole disk)
    (d : Document) :
    (link.insert d).2.failures .lastSerial = link.failures .lastSerial ∧
      ((link.insert d).1 = .ok () → (s.insert d disk).1 = .ok () ∧
        (link.insert d).2.store = .segment (s.insert d disk).2.1 (s.insert d disk).2.2) ∧
      ∀ e, (link.insert d).1 = .error e →
        e ≠ .frameBeyondEnd ∧ (link.insert d).2.store = link.store := by
  have put : Store.insert d (.segment s disk) =
      ((s.insert d disk).1, .segment (s.insert d disk).2.1 (s.insert d disk).2.2) := by
    rw [Store.insert]
  rcases link.insert_counts d with ⟨e, link', failed, known, store, -, others⟩ | ⟨-, made⟩
  · rw [failed]
    have other : Call.lastSerial ≠ .insert := by decide
    refine ⟨others _ other, ?_, ?_⟩
    · intro accepted
      cases accepted
    · intro _ same
      cases same
      exact ⟨known, store⟩
  · rw [made]
    simp only [segment, put, true_and]
    refine ⟨fun accepted => ⟨accepted, trivial⟩, ?_⟩
    intro e refused
    have same : (s.insert d disk).2 = (s, disk) := sole.insert_error refused
    exact ⟨sole.ne_frameBeyondEnd refused, by rw [same]⟩

end Link

/-! ## The accounts -/

/-- What a record tells, apart from its time and its serial number. -/
def Record.message (r : Record) : String × String × String × List Json :=
  (r.owner, r.interface, r.method, r.args)

/-- What has become of the records that a writer was handed. -/
structure Ledger where
  handed : List Record
  /-- The records that were stored, with their serial numbers. -/
  stored : List Record
  /-- How many look-ups of the highest serial number failed. -/
  missed : Nat
  /-- How many serial numbers were taken. -/
  taken : Nat
  /-- On how many records the writer broke off. -/
  brokenOff : Nat

namespace Ledger

/-- The ledger of a writer that was handed nothing. -/
def empty : Ledger := ⟨[], [], 0, 0, 0⟩

/-- The number that was assigned last, when some numbers above `base` have been taken. It is known
once no look-up fails any more. -/
inductive Numbered (base : UInt64) (taken : Nat) (looked : Prop) : Option UInt64 → Prop where
  | unknown : taken = 0 → Numbered base taken looked none
  | known {last : UInt64} :
    last.toNat = base.toNat + taken → looked → Numbered base taken looked (some last)

/-- The ledger of a writer that was created on a link to the store `s`, alone with its file, of which
the next `misses` look-ups fail. -/
structure Kept (s : Segment) (disk : Disk) (misses : Nat) (w : Writer) (link : Link) (l : Ledger) :
    Prop where
  enabled : w.enabled = true
  handed_eq : l.handed.length = l.missed + l.taken + l.brokenOff
  written_eq : w.written = l.stored.length
  counted_eq : w.written + w.failed = l.missed + l.taken
  misses_eq : l.missed + link.failures .lastSerial = misses
  numbered : Numbered (s.base disk) l.taken (l.missed = misses) w.serial
  /-- A writer breaks off only when no number is left. -/
  usable : w.unusable = false ∧ l.brokenOff = 0 ∨
    w.unusable = true ∧ l.missed = misses ∧
      (s.base disk).toNat + l.taken + 1 = UInt64.size
  messages : (l.stored.map Record.message).Sublist (l.handed.map Record.message)
  /-- The stored records have some of the taken numbers, in their order. -/
  serials : (l.stored.map (·.serial.toNat)).Sublist
    (List.range' ((s.base disk).toNat + 1) l.taken)
  store : ∃ s' disk', link.store = .segment s' disk' ∧
    s.Grown disk (l.stored.map .ofRecord) s' disk' ∧
    (w.serial = none → s' = s ∧ disk' = disk)

namespace Kept

variable {s : Segment} {disk : Disk} {misses : Nat} {w : Writer} {link : Link} {l : Ledger}

theorem create (segment : link.store = .segment s disk) (sole : s.Sole disk) :
    Kept s disk (link.failures .lastSerial) (.create true) link .empty where
  enabled := rfl
  handed_eq := rfl
  written_eq := rfl
  counted_eq := rfl
  misses_eq := Nat.zero_add _
  numbered := .unknown rfl
  usable := .inl ⟨rfl, rfl⟩
  messages := List.Sublist.refl _
  serials := List.Sublist.refl _
  store := ⟨s, disk, segment, .refl sole, fun _ => ⟨rfl, rfl⟩⟩

theorem brokenOff_eq (h : l.Kept s disk misses w link) (usable : w.unusable = false) :
    l.brokenOff = 0 := by
  rcases h.usable with ⟨-, never⟩ | ⟨broken, -⟩
  · exact never
  · rw [usable] at broken
    cases broken

/-- How many records there are with one more. -/
theorem length_handed (h : l.Kept s disk misses w link) (r : Record) :
    (l.handed ++ [r]).length = l.missed + l.taken + l.brokenOff + 1 := by
  rw [List.length_append, List.length_singleton, h.handed_eq]

/-- One more record does not change what the stored ones tell. -/
theorem messages_later (h : l.Kept s disk misses w link) (r : Record) :
    (l.stored.map Record.message).Sublist ((l.handed ++ [r]).map Record.message) := by
  rw [List.map_append]
  exact h.messages.trans (List.sublist_append_left _ _)

/-- The number that the writer goes on from. -/
theorem seeded (h : l.Kept s disk misses w link) {last : UInt64} {link' : Link}
    (seeded : w.Seeded link last link') :
    last.toNat = (s.base disk).toNat + l.taken ∧ l.missed = misses ∧ link' = link := by
  have numbered := h.numbered
  cases seeded with
  | known known =>
    rw [known] at numbered
    cases numbered with
    | known last_eq missed => exact ⟨last_eq, missed, rfl⟩
  | found unknown answer =>
    obtain ⟨s', disk', segment, grown, same⟩ := h.store
    obtain ⟨rfl, rfl⟩ := same unknown
    rw [unknown] at numbered
    cases numbered with
    | unknown none_taken =>
      have misses := h.misses_eq
      rcases Link.lastSerial_of_segment segment grown.sole with
        ⟨e, link'', failed, -⟩ | ⟨reached, told⟩
      · rw [failed] at answer
        cases answer
      · rw [told] at answer
        cases answer
        exact ⟨by rw [none_taken]; rfl, by omega, rfl⟩

/-- The writer breaks off on a record. -/
theorem breakOff (h : l.Kept s disk misses w link) (r : Record) {unusable : Bool}
    (broken : unusable = true) (missed : l.missed = misses)
    (full : (s.base disk).toNat + l.taken + 1 = UInt64.size) :
    Kept s disk misses { w with unusable } link
      { l with handed := l.handed ++ [r], brokenOff := l.brokenOff + 1 } where
  enabled := h.enabled
  handed_eq := by
    simp only [h.length_handed r]
    omega
  written_eq := h.written_eq
  counted_eq := h.counted_eq
  misses_eq := h.misses_eq
  numbered := h.numbered
  usable := .inr ⟨broken, missed, full⟩
  messages := h.messages_later r
  serials := h.serials
  store := h.store

/-- A look-up fails. -/
theorem miss (h : l.Kept s disk misses w link) (r : Record) {link' : Link}
    (usable : w.unusable = false) (unknown : w.serial = none) (store : link'.store = link.store)
    (fewer : link.failures .lastSerial = link'.failures .lastSerial + 1) :
    Kept s disk misses { w with failed := w.failed + 1 } link'
      { l with handed := l.handed ++ [r], missed := l.missed + 1 } where
  enabled := h.enabled
  handed_eq := by
    simp only [h.length_handed r]
    omega
  written_eq := h.written_eq
  counted_eq := by
    have := h.counted_eq
    simp only
    omega
  misses_eq := by
    have := h.misses_eq
    simp only
    omega
  numbered := by
    have numbered := h.numbered
    rw [unknown] at numbered
    cases numbered with
    | unknown none_taken =>
      simp only [unknown]
      exact .unknown none_taken
  usable := .inl ⟨usable, h.brokenOff_eq usable⟩
  messages := h.messages_later r
  serials := h.serials
  store := by
    rw [store]
    exact h.store

/-- A number is taken, and the insertion fails. -/
theorem refuse (h : l.Kept s disk misses w link) (r : Record) {last : UInt64} {link' : Link}
    (usable : w.unusable = false) (missed : l.missed = misses)
    (last_eq : last.toNat = (s.base disk).toNat + (l.taken + 1))
    (failures : link'.failures .lastSerial = link.failures .lastSerial)
    (store : link'.store = link.store) :
    Kept s disk misses { w with serial := some last, failed := w.failed + 1 } link'
      { l with handed := l.handed ++ [r], taken := l.taken + 1 } where
  enabled := h.enabled
  handed_eq := by
    simp only [h.length_handed r]
    omega
  written_eq := h.written_eq
  counted_eq := by
    have := h.counted_eq
    simp only
    omega
  misses_eq := failures ▸ h.misses_eq
  numbered := .known last_eq missed
  usable := .inl ⟨usable, h.brokenOff_eq usable⟩
  messages := h.messages_later r
  serials := h.serials.trans (by rw [List.range'_concat]; exact List.sublist_append_left _ _)
  store := by
    obtain ⟨s', disk', segment, grown, -⟩ := h.store
    exact ⟨s', disk', store.trans segment, grown, nofun⟩

/-- A record is stored. -/
theorem put (h : l.Kept s disk misses w link) (r : Record) {last : UInt64} {link' : Link}
    (usable : w.unusable = false) (missed : l.missed = misses)
    (last_eq : last.toNat = (s.base disk).toNat + (l.taken + 1))
    (failures : link'.failures .lastSerial = link.failures .lastSerial)
    {s' : Segment} {disk' : Disk} (store : link'.store = .segment s' disk')
    (grown : s.Grown disk ((l.stored ++ [r.withSerial last]).map .ofRecord) s' disk') :
    Kept s disk misses { w with serial := some last, written := w.written + 1 } link'
      { l with
        handed := l.handed ++ [r]
        stored := l.stored ++ [r.withSerial last]
        taken := l.taken + 1 } where
  enabled := h.enabled
  handed_eq := by
    simp only [h.length_handed r]
    omega
  written_eq := by
    have := h.written_eq
    simp only [List.length_append, List.length_singleton]
    omega
  counted_eq := by
    have := h.counted_eq
    simp only
    omega
  misses_eq := failures ▸ h.misses_eq
  numbered := .known last_eq missed
  usable := .inl ⟨usable, h.brokenOff_eq usable⟩
  messages := by
    rw [List.map_append, List.map_append]
    exact h.messages.append (List.Sublist.refl _)
  serials := by
    rw [List.range'_concat, List.map_append]
    refine h.serials.append ?_
    have number : (s.base disk).toNat + 1 + 1 * l.taken = last.toNat := by omega
    rw [number]
    exact List.Sublist.refl _
  store := ⟨s', disk', store, grown, nofun⟩

theorem toNat_next {base last : UInt64} {taken : Nat} (h : last.toNat = base.toNat + taken)
    (room : last.toNat + 1 < UInt64.size) : (last + 1).toNat = base.toNat + (taken + 1) := by
  rw [UInt64.toNat_add, UInt64.toNat_one, Nat.mod_eq_of_lt room, h, Nat.add_assoc]

/-- Whatever becomes of one more record, it is told. -/
theorem handle (h : l.Kept s disk misses w link) (r : Record) :
    ∃ l' : Ledger, l'.handed = l.handed ++ [r] ∧
      l'.Kept s disk misses (w.handle r link).2.1 (w.handle r link).2.2 := by
  have wrote := w.wrote r link
  rw [Writer.handle, if_pos h.enabled]
  generalize w.write r link = answer at wrote ⊢
  cases wrote with
  | broken unusable =>
    rcases h.usable with ⟨usable, -⟩ | ⟨broken, missed, full⟩
    · rw [usable] at unusable
      cases unusable
    · exact ⟨_, rfl, h.breakOff r broken missed full⟩
  | unseeded usable unknown answer =>
    obtain ⟨s', disk', segment, grown, -⟩ := h.store
    rcases Link.lastSerial_of_segment segment grown.sole with
      ⟨e', link'', failed, known, same, fewer⟩ | ⟨-, told⟩
    · rw [failed] at answer
      cases answer
      simp only [JournalError.panic?_store known]
      exact ⟨_, rfl, h.miss r usable unknown same fewer⟩
    · rw [told] at answer
      cases answer
  | @exhausted last link' usable seeded none_left =>
    obtain ⟨last_eq, missed, rfl⟩ := h.seeded seeded
    have full : (s.base disk).toNat + l.taken + 1 = UInt64.size := by
      have small := UInt64.toNat_lt_size last
      omega
    exact ⟨_, rfl, h.breakOff r rfl missed full⟩
  | @refused last link' link'' e usable seeded room answer =>
    obtain ⟨last_eq, missed, rfl⟩ := h.seeded seeded
    obtain ⟨s', disk', segment, grown, -⟩ := h.store
    obtain ⟨failures, -, same⟩ := Link.insert_of_segment segment grown.sole _
    rw [answer] at failures same
    obtain ⟨known, same⟩ := same e rfl
    simp only [JournalError.panic?_store known]
    exact ⟨_, rfl, h.refuse r usable missed (toNat_next last_eq room) failures same⟩
  | @stored last link' link'' usable seeded room answer =>
    obtain ⟨last_eq, missed, rfl⟩ := h.seeded seeded
    obtain ⟨s', disk', segment, grown, -⟩ := h.store
    obtain ⟨failures, put, -⟩ := Link.insert_of_segment segment grown.sole _
    rw [answer] at failures put
    obtain ⟨accepted, store⟩ := put rfl
    have more := grown.insert accepted
    rw [← List.map_singleton, ← List.map_append] at more
    exact ⟨_, rfl, h.put r usable missed (toNat_next last_eq room) failures store more⟩

/-- The counts of the writer, with the records for which there was neither a failing look-up nor a
serial number, make up all that it was handed. -/
theorem sum_eq (h : l.Kept s disk misses w link) :
    w.written + w.failed +
      (l.handed.length - misses - (UInt64.size - 1 - (s.base disk).toNat)) = l.handed.length := by
  have handed := h.handed_eq
  have counted := h.counted_eq
  have looked := h.misses_eq
  have small := UInt64.toNat_lt_size (s.base disk)
  rcases h.usable with ⟨-, never⟩ | ⟨-, missed, full⟩
  · have numbered := h.numbered
    generalize w.serial = known at numbered
    cases numbered with
    | unknown none_taken => omega
    | @known last last_eq missed =>
      have := UInt64.toNat_lt_size last
      omega
  · omega

/-- The numbers rise, from above the highest one in the file. -/
theorem rising (h : l.Kept s disk misses w link) :
    (l.stored.map (·.serial)).Pairwise (· < ·) ∧ ∀ r ∈ l.stored, s.base disk < r.serial := by
  constructor
  · have rising := List.Pairwise.sublist h.serials List.pairwise_lt_range'
    rw [List.pairwise_map] at rising ⊢
    exact rising.imp fun below => UInt64.lt_iff_toNat_lt.mpr below
  · intro r inside
    have number := h.serials.mem (List.mem_map_of_mem inside)
    rw [List.mem_range'_1] at number
    exact UInt64.lt_iff_toNat_lt.mpr number.1

/-- Without a failure the numbers follow on one another. -/
theorem serials_eq (h : l.Kept s disk misses w link) (none_failed : w.failed = 0) :
    l.stored.map (·.serial.toNat) =
      List.range' ((s.base disk).toNat + 1) l.stored.length := by
  have written := h.written_eq
  have counted := h.counted_eq
  have short := h.serials.length_le
  rw [List.length_map, List.length_range'] at short
  have all : l.stored.length = l.taken := by omega
  have serials := h.serials
  rw [← all] at serials
  exact serials.eq_of_length (by rw [List.length_map, List.length_range'])

end Kept

end Ledger

end TraceJournal
