import TraceJournal.Proofs.Journal.Writing
import TraceJournal.Proofs.Record.Decoding
import TraceJournal.Proofs.Store.Retained

/-!
# Serial numbers of writers that take turns

Writers follow one another on a store that removes nothing, while readers put sentinels in between
and calls fail. Each record comes to stand under a serial number above all that the store finds and
above all that the same writer has assigned, so that the numbers rise as long as every document in
the store is found.
-/

namespace TraceJournal

/-- Inserting over a link a document that pushes no other out: it is accepted, or the store stays as
it is. -/
theorem Store.Retains.insert_link {link : Link} {docs : List Document}
    (h : link.store.Retains docs) {d : Document} (keeps : link.store.Keeps d) :
    ((link.insert d).1 = .ok () ∧ (link.insert d).2.store.Retains (docs ++ [d]) ∧
        ∀ e, (link.insert d).2.store.finds? e = link.store.finds? e) ∨
      ∃ e, (link.insert d).1 = .error e ∧ (link.insert d).2.store = link.store := by
  rcases link.insert_cases d with ⟨e, n, failed⟩ | made
  · rw [failed]
    exact .inr ⟨e, rfl, rfl⟩
  · rw [made]
    rcases h.insert keeps with ⟨accepted, retains⟩ | ⟨e, refused, same⟩
    · exact .inl ⟨accepted, retains, fun e => link.store.finds?_insert e d⟩
    · exact .inr ⟨e, refused, same⟩

/-- The document that a write would insert. -/
def Writer.document? (r : Record) (w : Writer) (link : Link) : Option Document :=
  (w.nextSerial link).1.toOption.map fun serial => .ofRecord (r.withSerial serial)

/-- Below the successor of a number there is that number, and what is below it. -/
theorem lt_add_one_iff_of_toNat {m n : UInt64} (h : n.toNat + 1 < UInt64.size) :
    m < n + 1 ↔ m ≤ n := by
  rw [UInt64.lt_iff_toNat_lt, UInt64.le_iff_toNat_le, UInt64.toNat_add, UInt64.toNat_one,
    Nat.mod_eq_of_lt h, Nat.lt_succ_iff]

theorem lt_add_one_of_toNat {n : UInt64} (h : n.toNat + 1 < UInt64.size) : n < n + 1 :=
  (lt_add_one_iff_of_toNat h).mpr (Std.le_refl _)

theorem Writer.document?_seeded {r : Record} {w : Writer} {link link' : Link} {last : UInt64}
    (usable : w.unusable = false) (seeded : w.Seeded link last link')
    (room : last.toNat + 1 < UInt64.size) :
    w.document? r link = some (.ofRecord (r.withSerial (last + 1))) := by
  simp only [document?, nextSerial_seeded usable seeded, takeAfter, if_pos room, Except.toOption,
    Option.map_some]

/-- What writing a record comes to on a store that has some documents, as long as that removes none
of them. -/
inductive Writer.Put (docs : List Document) (r : Record) (w : Writer) (link : Link) :
    Except JournalError Position × Writer × Link → Prop where
  /-- The record comes to the end of the store under the next number. -/
  | stored {last : UInt64} {link' link'' : Link} :
    w.unusable = false → w.Seeded link last link' → last.toNat + 1 < UInt64.size →
      link''.store.Retains (docs ++ [.ofRecord (r.withSerial (last + 1))]) →
      (∀ e, link''.store.finds? e = link.store.finds? e) →
      Put docs r w link
        (.ok ⟨r.time, last + 1⟩,
          { w with serial := some (last + 1), written := w.written + 1 }, link'')
  /-- The number is taken for nothing. -/
  | refused {last : UInt64} {link' link'' : Link} {e : JournalError} :
    w.unusable = false → w.Seeded link last link' → last.toNat + 1 < UInt64.size →
      link''.store = link.store →
      Put docs r w link (.error e, { w with serial := some (last + 1) }, link'')
  /-- No number is taken. -/
  | failed {e : JournalError} {broken : Bool} {link' : Link} :
    link'.store = link.store → Put docs r w link (.error e, { w with unusable := broken }, link')

theorem Writer.put {docs : List Document} {r : Record} {w : Writer} {link : Link}
    (retains : link.store.Retains docs) (keeps : ∀ d ∈ w.document? r link, link.store.Keeps d) :
    w.Put docs r link (w.write r link) := by
  -- The document is offered to the store as it is after the number was looked up.
  have offer {last : UInt64} {link' : Link} (usable : w.unusable = false)
      (seeded : w.Seeded link last link') (room : last.toNat + 1 < UInt64.size) :=
    Store.Retains.insert_link (seeded.store_eq ▸ retains)
      (seeded.store_eq ▸ keeps _ (document?_seeded usable seeded room))
  have wrote := w.wrote r link
  generalize w.write r link = answer at wrote ⊢
  cases wrote with
  | broken _ => exact .failed rfl
  | unseeded _ _ answer =>
    refine .failed ?_
    rw [← link.lastSerial_keeps, answer]
  | exhausted _ seeded _ => exact .failed seeded.store_eq
  | refused usable seeded room answer =>
    rcases offer usable seeded room with ⟨accepted, -⟩ | ⟨_, -, same⟩
    · rw [answer] at accepted
      cases accepted
    · rw [answer] at same
      exact .refused usable seeded room (same.trans seeded.store_eq)
  | stored usable seeded room answer =>
    rcases offer usable seeded room with ⟨-, grown, finds⟩ | ⟨_, refused, -⟩
    · rw [answer] at grown finds
      refine .stored usable seeded room grown fun e => ?_
      rw [finds, seeded.store_eq]
    · rw [answer] at refused
      cases refused

/-! ## Writers that take turns -/

/-- A writer that follows others on a store, with all that has come into the store meanwhile. -/
structure Relay where
  link : Link
  writer : Writer
  /-- How many writers there were before. -/
  turn : Nat
  /-- The documents that came into the store, each with the turn of the writer that stored it, if
  it was not a reader. -/
  stored : List (Document × Option Nat)
  /-- How many records the writer has stored. -/
  succeeded : Nat
  /-- How often the writer, while it was enabled, has answered a record with an error. -/
  refused : Nat

namespace Relay

/-- What happens to writers that take turns. -/
inductive Action where
  /-- A record is written. -/
  | write (r : Record)
  /-- A record is handed to the writer as a handler. -/
  | handle (r : Record)
  /-- The writer is enabled or disabled. -/
  | enable (on : Bool)
  /-- The next writer takes over. -/
  | succeed (enabled : Bool)
  /-- A reader stores a sentinel. -/
  | anchor (time : Instant)
  /-- The next calls of a kind will fail. -/
  | arm (call : Call) (n : Nat)

/-- The first writer on a store. -/
def start (link : Link) (enabled : Bool) : Relay := ⟨link, .create enabled, 0, [], 0, 0⟩

/-- The relay after the writer has had a record, and has stored it or not. -/
def had (r : Record) (done : Bool) (writer : Writer) (link : Link) (s : Relay) : Relay :=
  { s with
    writer, link
    stored :=
      if done then
        s.stored ++ [(.ofRecord (r.withSerial (writer.serial.getD 0)), some s.turn)]
      else s.stored
    succeeded := s.succeeded + done.toNat }

/-- The relay after an action. -/
def next (s : Relay) : Action → Relay
  | .write r =>
    let (answer, writer, link) := s.writer.write r s.link
    s.had r answer.toBool writer link
  | .handle r =>
    let (answer, writer, link) := s.writer.handle r s.link
    match answer with
    | .ok none => s.had r s.writer.enabled writer link
    | .ok (some _) => { s.had r false writer link with refused := s.refused + 1 }
    | .error _ => s.had r false writer link
  | .enable on => { s with writer := { s.writer with enabled := on } }
  | .succeed enabled =>
    { s with writer := .create enabled, turn := s.turn + 1, succeeded := 0, refused := 0 }
  | .anchor time =>
    let d : Document := .ofRecord (.sentinel time)
    match s.link.insert d with
    | (.ok (), link) => { s with link, stored := s.stored ++ [(d, none)] }
    | (.error _, link) => { s with link }
  | .arm call n => { s with link := s.link.arm call n }

/-- The relay after some actions. -/
def run (s : Relay) (actions : List Action) : Relay := actions.foldl next s

/-- The document that an action would insert. -/
def document? (s : Relay) : Action → Option Document
  | .write r => s.writer.document? r s.link
  | .handle r => if s.writer.enabled then s.writer.document? r s.link else none
  | .anchor time => some (.ofRecord (.sentinel time))
  | _ => none

/-- No insertion among some actions removes anything from the store. -/
def Keeping (s : Relay) : List Action → Prop
  | [] => True
  | action :: rest =>
    (∀ d ∈ s.document? action, s.link.store.Keeps d) ∧ (s.next action).Keeping rest

instance decidableKeeping : (s : Relay) → (actions : List Action) → Decidable (s.Keeping actions)
  | _, [] => inferInstanceAs (Decidable True)
  | s, action :: rest =>
    have := decidableKeeping (s.next action) rest
    inferInstanceAs (Decidable (_ ∧ _))

/-- An entry is of this writer, or the store finds it. -/
def Knows (store : Store) (turn : Nat) (entry : Document × Option Nat) : Prop :=
  entry.2 = some turn ∨ (store.finds? entry.1).isSome

/-- An entry by a writer has a higher serial number than an earlier one, unless that is another
writer's and is not found. -/
def Rises (store : Store) (earlier later : Document × Option Nat) : Prop :=
  ∀ turn, later.2 = some turn → Knows store turn earlier → earlier.1.serial < later.1.serial

/-- What was in the store before the first writer, and what has come into it since. -/
def log (docs : List Document) (s : Relay) : List (Document × Option Nat) :=
  docs.map (·, none) ++ s.stored

/-- What holds throughout, on a store that held some documents at first. -/
structure Inv (docs : List Document) (s : Relay) : Prop where
  retains : s.link.store.Retains ((s.log docs).map (·.1))
  ordered : (s.log docs).Pairwise (Rises s.link.store)
  known_le : ∀ last, s.writer.serial = some last →
    ∀ entry ∈ s.log docs, Knows s.link.store s.turn entry → entry.1.serial ≤ last
  /-- Before its first write a writer has stored nothing. -/
  fresh : s.writer.serial = none → ∀ entry ∈ s.stored, entry.2 ≠ some s.turn
  turn_le : ∀ entry ∈ s.stored, ∀ turn, entry.2 = some turn → turn ≤ s.turn
  written_eq : s.writer.written = s.succeeded
  failed_eq : s.writer.failed = s.refused

namespace Inv

variable {docs : List Document} {s : Relay}

theorem start {link : Link} (retains : link.store.Retains docs) (enabled : Bool) :
    Inv docs (start link enabled) where
  retains := by
    have same : (log docs (Relay.start link enabled)).map (·.1) = docs := by
      simp only [log, Relay.start, List.append_nil, List.map_map]
      exact List.map_id docs
    rw [same]
    exact retains
  ordered := by
    simp only [log, Relay.start, List.append_nil, List.pairwise_map]
    exact List.pairwise_of_forall fun _ _ _ other => nomatch other
  known_le := nofun
  fresh := fun _ _ none => nomatch none
  turn_le := fun _ none => nomatch none
  written_eq := rfl
  failed_eq := rfl

/-- What the writer goes on from is not below any number that it has assigned or the store finds. -/
theorem le_seeded (h : s.Inv docs) {last : UInt64} {link' : Link}
    (seeded : s.writer.Seeded s.link last link') :
    ∀ entry ∈ s.log docs, Knows s.link.store s.turn entry → entry.1.serial ≤ last := by
  intro entry member knows
  cases seeded with
  | known serial => exact h.known_le last serial entry member knows
  | @found highest _ unknown answer =>
    rcases knows with own | found
    · rcases List.mem_append.mp member with old | new
      · obtain ⟨d, -, rfl⟩ := List.mem_map.mp old
        cases own
      · exact absurd own (h.fresh unknown entry new)
    · exact h.retains.le_of_lastSerial (Link.told_of_lastSerial answer)
        (List.mem_map_of_mem member) found

/-- Nothing has come into the store, and the writer has taken at most a higher number. -/
theorem keep (h : s.Inv docs) {link : Link} {writer : Writer} {succeeded refused : Nat}
    (store : link.store = s.link.store)
    (le : ∀ last, writer.serial = some last →
      ∀ entry ∈ s.log docs, Knows s.link.store s.turn entry → entry.1.serial ≤ last)
    (fresh : writer.serial = none → s.writer.serial = none)
    (written : writer.written = succeeded) (failed : writer.failed = refused) :
    Inv docs { s with link, writer, succeeded, refused } where
  retains := by
    rw [store]
    exact h.retains
  ordered := by
    rw [store]
    exact h.ordered
  known_le := by
    rw [store]
    exact le
  fresh unknown := h.fresh (fresh unknown)
  turn_le := h.turn_le
  written_eq := written
  failed_eq := failed

/-- A document has come into the store, by the writer or by a reader. -/
theorem add (h : s.Inv docs) {link : Link} {writer : Writer} {succeeded refused : Nat}
    {d : Document} (author : Option Nat)
    (retains : link.store.Retains ((s.log docs).map (·.1) ++ [d]))
    (finds : ∀ e, link.store.finds? e = s.link.store.finds? e)
    (own : ∀ turn, author = some turn → turn = s.turn ∧ writer.serial ≠ none ∧
      ∀ entry ∈ s.log docs, Knows s.link.store s.turn entry → entry.1.serial < d.serial)
    (le : ∀ last, writer.serial = some last → d.serial ≤ last ∧
      ∀ entry ∈ s.log docs, Knows s.link.store s.turn entry → entry.1.serial ≤ last)
    (fresh : writer.serial = none → s.writer.serial = none)
    (written : writer.written = succeeded) (failed : writer.failed = refused) :
    Inv docs
      { s with link, writer, succeeded, refused, stored := s.stored ++ [(d, author)] } := by
  have log : log docs
      { s with link, writer, succeeded, refused, stored := s.stored ++ [(d, author)] } =
        s.log docs ++ [(d, author)] := (List.append_assoc _ _ _).symm
  have knows : Knows link.store = Knows s.link.store := by
    funext t entry
    rw [Knows, finds, Knows]
  have rises : Rises link.store = Rises s.link.store := by
    funext a b
    rw [Rises, knows, Rises]
  constructor
  · rw [log, List.map_append, List.map_singleton]
    exact retains
  · rw [log, rises, List.pairwise_append]
    refine ⟨h.ordered, List.pairwise_singleton _ _, ?_⟩
    intro earlier member later here turn mine knew
    rw [List.mem_singleton.mp here] at mine ⊢
    obtain ⟨rfl, -, above⟩ := own turn mine
    exact above earlier member knew
  · intro last serial entry member knew
    rw [log] at member
    rw [knows] at knew
    rcases List.mem_append.mp member with old | new
    · exact (le last serial).2 entry old knew
    · rw [List.mem_singleton.mp new]
      exact (le last serial).1
  · intro unknown entry member mine
    rcases List.mem_append.mp member with old | new
    · exact h.fresh (fresh unknown) entry old mine
    · rw [List.mem_singleton.mp new] at mine
      exact (own s.turn mine).2.1 unknown
  · intro entry member turn mine
    rcases List.mem_append.mp member with old | new
    · exact h.turn_le entry old turn mine
    · rw [List.mem_singleton.mp new] at mine
      exact Nat.le_of_eq (own turn mine).1
  · exact written
  · exact failed

/-- A write that removes nothing. -/
theorem write (h : s.Inv docs) {r : Record}
    (keeps : ∀ d ∈ s.writer.document? r s.link, s.link.store.Keeps d) :
    (s.next (.write r)).Inv docs := by
  have put := Writer.put h.retains keeps
  -- The next number is above all that the writer knows of.
  have below {last : UInt64} {link' : Link} (seeded : s.writer.Seeded s.link last link')
      (room : last.toNat + 1 < UInt64.size) (entry : Document × Option Nat)
      (member : entry ∈ s.log docs) (knows : Knows s.link.store s.turn entry) :=
    Std.lt_of_le_of_lt (h.le_seeded seeded entry member knows) (lt_add_one_of_toNat room)
  simp only [next]
  generalize s.writer.write r s.link = answer at put ⊢
  cases put with
  | failed same => exact h.keep same h.known_le id h.written_eq h.failed_eq
  | refused usable seeded room same =>
    refine h.keep same ?_ nofun h.written_eq h.failed_eq
    intro number assigned entry member knows
    rw [← Option.some.inj assigned]
    exact Std.le_of_lt (below seeded room entry member knows)
  | stored usable seeded room retains finds =>
    refine h.add (some s.turn) retains finds ?_ ?_ nofun
      (congrArg (· + 1) h.written_eq) h.failed_eq
    · intro turn mine
      exact ⟨(Option.some.inj mine).symm, nofun, below seeded room⟩
    · intro number assigned
      rw [← Option.some.inj assigned]
      refine ⟨Std.le_refl _, ?_⟩
      intro entry member knows
      exact Std.le_of_lt (below seeded room entry member knows)

/-- A writer that is enabled handles a record by writing it, and counts a failure. -/
theorem handle (h : s.Inv docs) {r : Record}
    (keeps : ∀ d ∈ s.document? (.handle r), s.link.store.Keeps d) :
    (s.next (.handle r)).Inv docs := by
  by_cases on : s.writer.enabled = true
  · simp only [document?, if_pos on] at keeps
    have written := h.write keeps
    have handled := s.writer.handled r on s.link
    simp only [next] at written ⊢
    generalize s.writer.handle r s.link = answer at handled ⊢
    cases handled with
    | stored result =>
      rw [result] at written
      rw [on]
      exact written
    | brokenOff result _ =>
      rw [result] at written
      exact written
    | counted result _ =>
      rw [result] at written
      exact written.keep rfl written.known_le id written.written_eq
        (congrArg (· + 1) written.failed_eq)
  · have off : s.writer.enabled = false := by simpa using on
    simp only [next, Writer.handle_of_disabled off, off]
    exact h

theorem anchor (h : s.Inv docs) {time : Instant}
    (keeps : s.link.store.Keeps (.ofRecord (.sentinel time))) :
    (s.next (.anchor time)).Inv docs := by
  simp only [next]
  have inserted := h.retains.insert_link keeps
  generalize s.link.insert (.ofRecord (.sentinel time)) = answer at inserted ⊢
  obtain ⟨result, link⟩ := answer
  rcases inserted with ⟨rfl, retains, finds⟩ | ⟨e, rfl, same⟩
  · refine h.add none retains finds ?_ ?_ id h.written_eq h.failed_eq
    · intro _ mine
      cases mine
    · intro last assigned
      exact ⟨UInt64.zero_le, h.known_le last assigned⟩
  · exact h.keep same h.known_le id h.written_eq h.failed_eq

/-- The next writer has not stored anything yet. -/
theorem succeed (h : s.Inv docs) (enabled : Bool) : (s.next (.succeed enabled)).Inv docs where
  retains := h.retains
  ordered := h.ordered
  known_le := nofun
  fresh := by
    intro _ entry member mine
    have le := h.turn_le entry member _ mine
    exact Nat.not_succ_le_self s.turn le
  turn_le entry member turn mine := Nat.le_succ_of_le (h.turn_le entry member turn mine)
  written_eq := rfl
  failed_eq := rfl

theorem next (h : s.Inv docs) {action : Action}
    (keeps : ∀ d ∈ s.document? action, s.link.store.Keeps d) : (s.next action).Inv docs := by
  cases action with
  | write r => exact h.write keeps
  | handle r => exact h.handle keeps
  | enable on => exact h.keep rfl h.known_le id h.written_eq h.failed_eq
  | succeed enabled => exact h.succeed enabled
  | anchor time => exact h.anchor (keeps _ rfl)
  | arm call n => exact h.keep rfl h.known_le id h.written_eq h.failed_eq

theorem run (h : s.Inv docs) {actions : List Action} (keeping : s.Keeping actions) :
    (s.run actions).Inv docs := by
  induction actions generalizing s with
  | nil => exact h
  | cons action rest ih => exact ih (h.next keeping.1) keeping.2

end Inv

/-! ## The next write -/

/-- What the next write of a record comes to. -/
structure Writes (docs : List Document) (r : Record) (s : Relay) : Prop where
  /-- A position is answered when a document there has come into the store, and keeps the record. -/
  stored : ∀ p, (s.writer.write r s.link).1 = .ok p →
    ∃ d : Document, d.position = p ∧ d.toRecord = .ok (r.withSerial p.serial) ∧
      (s.writer.write r s.link).2.2.store.Retains ((s.log docs).map (·.1) ++ [d])
  /-- With an error nothing comes into the store. -/
  unstored : ∀ e, (s.writer.write r s.link).1 = .error e →
    (s.writer.write r s.link).2.2.store = s.link.store
  /-- A look-up that fails leaves the writer as it is: the next write looks up again. -/
  unseeded : s.writer.unusable = false → s.writer.serial = none →
    ∀ e, s.link.lastSerial.1 = .error e →
      (s.writer.write r s.link).1 = .error (.store e) ∧
        (s.writer.write r s.link).2.1 = s.writer
  /-- An insertion that fails takes the next number, and only that. -/
  refused : ∀ last link', s.writer.unusable = false → s.writer.Seeded s.link last link' →
    last.toNat + 1 < UInt64.size →
      ∀ e, (link'.insert (.ofRecord (r.withSerial (last + 1)))).1 = .error e →
        (s.writer.write r s.link).1 = .error (.store e) ∧
          (s.writer.write r s.link).2.1 = { s.writer with serial := some (last + 1) }

theorem Inv.writes {docs : List Document} {s : Relay} (h : s.Inv docs) {r : Record}
    (keeps : ∀ d ∈ s.writer.document? r s.link, s.link.store.Keeps d) : s.Writes docs r := by
  have put := Writer.put h.retains keeps
  constructor
  · intro p answered
    generalize s.writer.write r s.link = answer at put answered ⊢
    cases put with
    | stored _ _ _ retains =>
      cases answered
      exact ⟨_, rfl, Document.toRecord_ofRecord _, retains⟩
    | _ => cases answered
  · intro e answered
    generalize s.writer.write r s.link = answer at put answered ⊢
    cases put with
    | failed same | refused _ _ _ same => exact same
    | stored => cases answered
  · intro usable unknown e failed
    rcases answer : s.link.lastSerial with ⟨result, link'⟩
    rw [answer] at failed
    cases failed
    rw [Writer.write, Writer.nextSerial_unseeded usable unknown answer]
    exact ⟨rfl, rfl⟩
  · intro last link' usable seeded room e failed
    rcases answer : link'.insert (.ofRecord (r.withSerial (last + 1))) with ⟨result, link''⟩
    rw [answer] at failed
    cases failed
    rw [Writer.write, Writer.nextSerial_seeded usable seeded]
    simp only [Writer.takeAfter, if_pos room, answer]
    exact ⟨trivial, trivial⟩

end Relay

/-- Writers take turns on a store that held some documents at first, and from which nothing is
removed; readers put sentinels in between, and calls fail. What a writer stores has a higher serial
number than all that it stored before and than all earlier documents that the store finds: if it
finds all of them, the numbers rise. The counts are those of the records that were stored and that
could not be handled; as a handler, a writer does not fail but by breaking off, and does nothing
while it is disabled. -/
theorem Writer.numbers_rise {link : Link} {docs : List Document} {enabled : Bool}
    {actions : List Relay.Action} (retains : link.store.Retains docs)
    (keeping : (Relay.start link enabled).Keeping actions) :
    let s := (Relay.start link enabled).run actions
    let log := s.log docs
    s.link.store.Retains (log.map (·.1)) ∧
    s.link.store.documents = .ok ((log.map (·.1)).filterMap s.link.store.finds?) ∧
    log.Pairwise (Relay.Rises s.link.store) ∧
    ((∀ entry ∈ log, (s.link.store.finds? entry.1).isSome) →
      log.Pairwise fun a b => b.2.isSome → a.1.serial < b.1.serial) ∧
    s.writer.written = s.succeeded ∧ s.writer.failed = s.refused ∧
    (∀ r reason, (s.writer.handle r s.link).1 ≠ .error (.failed reason)) ∧
    (s.writer.enabled = false → ∀ r, s.writer.handle r s.link = (.ok none, s.writer, s.link)) ∧
    ∀ r, (∀ d ∈ s.writer.document? r s.link, s.link.store.Keeps d) → s.Writes docs r := by
  intro s log
  have inv : s.Inv docs := (Relay.Inv.start retains enabled).run keeping
  refine ⟨inv.retains, inv.retains.documents_eq, inv.ordered, ?_, inv.written_eq, inv.failed_eq, ?_,
    fun off r => handle_of_disabled off, fun r keeps => inv.writes keeps⟩
  · intro found
    refine inv.ordered.imp_of_mem ?_
    intro a b earlier _ rises own
    obtain ⟨turn, mine⟩ := Option.isSome_iff_exists.mp own
    exact rises turn mine (.inr (found a earlier))
  · intro r reason failed
    by_cases on : s.writer.enabled = true
    · have handled := s.writer.handled r on s.link
      generalize s.writer.handle r s.link = answer at handled failed
      cases handled <;> cases failed
    · rw [handle_of_disabled (by simpa using on)] at failed
      cases failed

/-- A failed look-up, a failed insertion, a sentinel and a second writer: the numbers are 2, 0
and 3. -/
theorem Writer.numbers_rise_after_failures :
    let t : Instant := ⟨0, 0, by decide, by decide, by decide, by decide⟩
    let r : Record := .atTime t "shop" "Orders" "placed" []
    let actions : List Relay.Action := [.arm .lastSerial 1, .write r, .arm .insert 1, .write r,
      .handle r, .anchor t, .succeed true, .handle r]
    let s := (Relay.start (.reliable (.memory .unbounded)) true).run actions
    (Relay.start (.reliable (.memory .unbounded)) true).Keeping actions ∧
      (s.log []).map (·.1.serial) = [2, 0, 3] ∧
      (s.log []).Pairwise (Relay.Rises s.link.store) := by
  intro t r actions s
  have empty : (Link.reliable (.memory .unbounded)).store.Retains [] := rfl
  have keeping : (Relay.start (.reliable (.memory .unbounded)) true).Keeping actions := by
    decide +kernel
  obtain ⟨-, -, rising, -⟩ := numbers_rise empty keeping
  exact ⟨keeping, by decide +kernel, rising⟩

end TraceJournal
