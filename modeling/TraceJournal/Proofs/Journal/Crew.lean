import Mathlib.Order.Defs.Unbundled
import TraceJournal.Proofs.Journal.Numbering

/-!
# Several writers on one store

Writers that are used side by side each go on from a number of their own, which they took from the
store at their first write. What one of them stores has a higher number than all that it stored
before. As long as nobody writes who was overtaken, that is, while the store tells a higher number
than the writer's own, the numbers of all of them rise, so that the positions of all documents are
in a strict order. A writer that was overtaken takes a number that is already there.
-/

namespace TraceJournal

namespace Position

theorem lt_irrefl (p : Position) : ¬p < p := by
  rintro (earlier | ⟨-, lower⟩)
  · exact Int.lt_irrefl _ earlier
  · exact UInt64.lt_irrefl _ lower

theorem lt_trans {p q r : Position} (hpq : p < q) (hqr : q < r) : p < r := by
  rcases hpq with earlier | ⟨same, lower⟩
  · left
    rcases hqr with later | ⟨same, -⟩
    · exact Int.lt_trans earlier later
    · exact same ▸ earlier
  · rcases hqr with later | ⟨same', higher⟩
    · exact .inl (same ▸ later)
    · exact .inr ⟨same.trans same', UInt64.lt_trans lower higher⟩

/-- Of two positions with different serial numbers one is before the other. -/
theorem lt_or_lt_of_serial {p q : Position} (lower : p.serial < q.serial) : p < q ∨ q < p := by
  rcases Int.lt_trichotomy p.time.rank q.time.rank with earlier | same | later
  · exact .inl (.inl earlier)
  · exact .inl (.inr ⟨Instant.rank_inj.mp same, lower⟩)
  · exact .inr (.inl later)

/-- Some positions with rising serial numbers are in a strict order, each one at its own place. -/
theorem isStrictTotalOrder_of_rising {positions : List Position}
    (rising : positions.Pairwise fun p q => p.serial < q.serial) :
    IsStrictTotalOrder (Fin positions.length) fun i j => positions[i] < positions[j] where
  irrefl i := lt_irrefl positions[i]
  trans _ _ _ := lt_trans
  trichotomous i j := by
    intro before after
    rcases Nat.lt_trichotomy i j with first | same | second
    · have lower := List.pairwise_iff_getElem.mp rising i j i.isLt j.isLt first
      rcases lt_or_lt_of_serial lower with lt | gt
      · exact absurd lt before
      · exact absurd gt after
    · exact Fin.ext same
    · have lower := List.pairwise_iff_getElem.mp rising j i j.isLt i.isLt second
      rcases lt_or_lt_of_serial lower with gt | lt
      · exact absurd gt after
      · exact absurd lt before

end Position

/-- Writers on one store, with all that has come into the store meanwhile. -/
structure Crew where
  link : Link
  writers : List Writer
  /-- The documents that came into the store, each with the number of the writer that stored it, if
  it was not a reader. -/
  stored : List (Document × Option Nat)

namespace Crew

/-- What happens to writers on one store. -/
inductive Action where
  /-- A writer is created. -/
  | create (enabled : Bool)
  /-- A writer is enabled or disabled. -/
  | enable (number : Nat) (on : Bool)
  /-- A writer writes a record. -/
  | write (number : Nat) (r : Record)
  /-- A record is handed to a writer as a handler. -/
  | handle (number : Nat) (r : Record)
  /-- A reader stores a sentinel. -/
  | anchor (time : Instant)
  /-- The next calls of a kind will fail. -/
  | arm (call : Call) (n : Nat)

/-- A store without writers. -/
def start (link : Link) : Crew := ⟨link, [], []⟩

/-- The crew after a writer has had a record, and has stored it or not. -/
def had (number : Nat) (r : Record) (done : Bool) (writer : Writer) (link : Link) (s : Crew) :
    Crew where
  link := link
  writers := s.writers.set number writer
  stored :=
    if done then
      s.stored ++ [(.ofRecord (r.withSerial (writer.serial.getD 0)), some number)]
    else s.stored

/-- The crew after an action. -/
def next (s : Crew) : Action → Crew
  | .create enabled => { s with writers := s.writers ++ [.create enabled] }
  | .enable number on =>
    { s with writers := s.writers.modify number fun w => { w with enabled := on } }
  | .write number r =>
    match s.writers[number]? with
    | none => s
    | some w =>
      let (answer, writer, link) := w.write r s.link
      s.had number r answer.toBool writer link
  | .handle number r =>
    match s.writers[number]? with
    | none => s
    | some w =>
      let (answer, writer, link) := w.handle r s.link
      match answer with
      | .ok none => s.had number r w.enabled writer link
      | _ => s.had number r false writer link
  | .anchor time =>
    let d : Document := .ofRecord (.sentinel time)
    match s.link.insert d with
    | (.ok (), link) => { s with link, stored := s.stored ++ [(d, none)] }
    | (.error _, link) => { s with link }
  | .arm call n => { s with link := s.link.arm call n }

/-- The crew after some actions. -/
def run (s : Crew) (actions : List Action) : Crew := actions.foldl next s

/-- The document that an action would insert. -/
def document? (s : Crew) : Action → Option Document
  | .write number r => s.writers[number]?.bind fun w => w.document? r s.link
  | .handle number r =>
    s.writers[number]?.bind fun w => if w.enabled then w.document? r s.link else none
  | .anchor time => some (.ofRecord (.sentinel time))
  | _ => none

/-- The writer that has a record by an action. -/
def Action.author? : Action → Option Nat
  | .write number _ => some number
  | .handle number _ => some number
  | _ => none

/-- All actions have a property, each in the crew as it is then. -/
def All (P : Crew → Action → Prop) (s : Crew) : List Action → Prop
  | [] => True
  | action :: rest => P s action ∧ (s.next action).All P rest

instance decidableAll (P : Crew → Action → Prop) [∀ s action, Decidable (P s action)] :
    (s : Crew) → (actions : List Action) → Decidable (s.All P actions)
  | _, [] => inferInstanceAs (Decidable True)
  | s, action :: rest =>
    have := decidableAll P (s.next action) rest
    inferInstanceAs (Decidable (_ ∧ _))

/-- What every action keeps that has a property, some such actions keep. -/
theorem All.run {P : Crew → Action → Prop} {Q : Crew → Prop}
    (step : ∀ s action, Q s → P s action → Q (s.next action)) {s : Crew} {actions : List Action}
    (all : s.All P actions) (start : Q s) : Q (s.run actions) := by
  induction actions generalizing s with
  | nil => exact start
  | cons action rest ih => exact ih all.2 (step s action start all.1)

theorem All.and {P Q : Crew → Action → Prop} {s : Crew} {actions : List Action}
    (left : s.All P actions) (right : s.All Q actions) :
    s.All (fun s action => P s action ∧ Q s action) actions := by
  induction actions generalizing s with
  | nil => exact trivial
  | cons action rest ih => exact ⟨⟨left.1, right.1⟩, ih left.2 right.2⟩

/-- The action removes nothing from the store. -/
def Keeps (s : Crew) (action : Action) : Prop :=
  ∀ d ∈ s.document? action, s.link.store.Keeps d

instance (s : Crew) (action : Action) : Decidable (s.Keeps action) :=
  inferInstanceAs (Decidable (∀ d ∈ s.document? action, s.link.store.Keeps d))

/-- The document that the action would insert is accepted. -/
def Accepts (s : Crew) (action : Action) : Prop :=
  (s.document? action).isSome → (s.next action).stored ≠ s.stored

instance (s : Crew) (action : Action) : Decidable (s.Accepts action) :=
  inferInstanceAs (Decidable (_ → _))

/-- The store does not tell a higher number than the writer's own. -/
def Abreast (s : Crew) (number : Nat) : Prop :=
  ∀ w ∈ s.writers[number]?, ∀ last ∈ w.serial,
    ∀ highest ∈ s.link.store.lastSerial.toOption, highest.getD 0 ≤ last

-- Named step by step, since there is also the way of trying all serial numbers.
instance (s : Crew) (number : Nat) : Decidable (s.Abreast number) :=
  have (last : UInt64) :
      Decidable (∀ highest ∈ s.link.store.lastSerial.toOption, highest.getD 0 ≤ last) :=
    Option.decidableForallMem _
  have (w : Writer) : Decidable (∀ last ∈ w.serial,
      ∀ highest ∈ s.link.store.lastSerial.toOption, highest.getD 0 ≤ last) :=
    Option.decidableForallMem _
  Option.decidableForallMem _

/-- A writer that was overtaken does not write. -/
def Yields (s : Crew) (action : Action) : Prop :=
  (s.document? action).isSome → ∀ number ∈ action.author?, s.Abreast number

instance (s : Crew) (action : Action) : Decidable (s.Yields action) :=
  inferInstanceAs (Decidable (_ → ∀ number ∈ action.author?, s.Abreast number))

/-- What was in the store before the first writer, and what has come into it since. -/
def log (docs : List Document) (s : Crew) : List (Document × Option Nat) :=
  docs.map (·, none) ++ s.stored

/-- The positions of all documents that writers stored. -/
def positions (s : Crew) : List Position :=
  (s.stored.filter (·.2.isSome)).map (·.1.position)

/-- The number that a writer assigned last. -/
def serialOf (s : Crew) (number : Nat) : Option UInt64 := s.writers[number]?.bind Writer.serial

/-! ## What one action does -/

/-- What an action comes to that removes nothing from the store: at most one document comes to the
end, and its writer takes the number after the one that it goes on from. -/
structure Stepped (docs : List Document) (s : Crew) (action : Action) (s' : Crew)
    (added : Option (Document × Option Nat)) : Prop where
  stored_eq : s'.stored = s.stored ++ added.toList
  retains : s'.link.store.Retains ((s.log docs ++ added.toList).map (·.1))
  finds : ∀ d, s'.link.store.finds? d = s.link.store.finds? d
  assigned : ∀ entry ∈ added, ∀ number, entry.2 = some number →
    action.author? = some number ∧ ∃ w last link', s.writers[number]? = some w ∧
      w.Seeded s.link last link' ∧ last.toNat + 1 < UInt64.size ∧ entry.1.serial = last + 1 ∧
      s'.serialOf number = some (last + 1)
  foreign : ∀ entry ∈ added, entry.2 = none → entry.1.serial = 0
  document : added.isSome → (s.document? action).isSome
  /-- A writer's number only changes for the document, which may be refused then, and only rises. -/
  serials : ∀ number, s'.serialOf number = s.serialOf number ∨
    ∃ last, s'.serialOf number = some last ∧
      (∀ before, s.serialOf number = some before → before ≤ last) ∧
      (s.document? action).isSome ∧ ∀ entry ∈ added, entry.2 = some number ∧ entry.1.serial = last

variable {docs : List Document} {s s' : Crew} {action : Action} {number : Nat} {w : Writer}
  {r : Record}

/-- An action by which nothing comes into the store. -/
theorem Stepped.of_unstored (retains : s.link.store.Retains ((s.log docs).map (·.1)))
    (store : s'.link.store = s.link.store) (stored : s'.stored = s.stored)
    (serials : ∀ number, s'.serialOf number = s.serialOf number ∨
      ∃ last, s'.serialOf number = some last ∧
        (∀ before, s.serialOf number = some before → before ≤ last) ∧
        (s.document? action).isSome) :
    Stepped docs s action s' none where
  stored_eq := by rw [stored, Option.toList_none, List.append_nil]
  retains := by
    rw [store, Option.toList_none, List.append_nil]
    exact retains
  finds d := by rw [store]
  assigned := by
    intro _ nothing
    cases nothing
  foreign := by
    intro _ nothing
    cases nothing
  document := by
    intro nothing
    cases nothing
  serials number := by
    rcases serials number with same | ⟨last, now, rises, offered⟩
    · exact .inl same
    · refine .inr ⟨last, now, rises, offered, ?_⟩
      intro _ nothing
      cases nothing

/-- An action after which the store and all numbers are as before. -/
theorem Stepped.of_quiet (retains : s.link.store.Retains ((s.log docs).map (·.1)))
    (store : s'.link.store = s.link.store) (stored : s'.stored = s.stored)
    (serials : ∀ number, s'.serialOf number = s.serialOf number) :
    Stepped docs s action s' none :=
  .of_unstored retains store stored fun number => .inl (serials number)

theorem serialOf_had {done : Bool} {writer : Writer} {link : Link}
    (there : s.writers[number]? = some w) (other : Nat) :
    (s.had number r done writer link).serialOf other =
      if other = number then writer.serial else s.serialOf other := by
  have inside : number < s.writers.length := (List.getElem?_eq_some_iff.mp there).1
  unfold serialOf had
  simp only [List.getElem?_set]
  by_cases same : number = other
  · rw [if_pos same, if_pos inside, if_pos same.symm, Option.bind_some]
  · rw [if_neg same, if_neg (Ne.symm same)]

/-- What a write comes to, if the action hands the record to the writer. -/
theorem stepped_had (retains : s.link.store.Retains ((s.log docs).map (·.1)))
    (there : s.writers[number]? = some w) (author : action.author? = some number)
    (document : s.document? action = w.document? r s.link)
    {answer : Except JournalError Position} {written writer : Writer} {link : Link}
    (put : w.Put ((s.log docs).map (·.1)) r s.link (answer, written, link))
    (same : writer.serial = written.serial) :
    ∃ added, Stepped docs s action (s.had number r answer.toBool writer link) added := by
  have own : s.serialOf number = w.serial := by rw [serialOf, there, Option.bind_some]
  have serials (done : Bool) (other : Nat) :
      (s.had number r done writer link).serialOf other =
        if other = number then written.serial else s.serialOf other := by
    rw [serialOf_had there, same]
  have offered {last : UInt64} {link' : Link} (usable : w.unusable = false)
      (seeded : w.Seeded s.link last link') (room : last.toNat + 1 < UInt64.size) :
      (s.document? action).isSome := by
    rw [document, Writer.document?_seeded usable seeded room, Option.isSome_some]
  -- The writer takes the number after the one that it goes on from.
  have taken {last : UInt64} {link' : Link} (seeded : w.Seeded s.link last link')
      (room : last.toNat + 1 < UInt64.size) (now : written.serial = some (last + 1)) (done : Bool)
      (other : Nat) :
      (s.had number r done writer link).serialOf other = s.serialOf other ∨
        other = number ∧ (s.had number r done writer link).serialOf other = some (last + 1) ∧
          ∀ before, s.serialOf other = some before → before ≤ last + 1 := by
    rw [serials]
    split
    · next here =>
      refine .inr ⟨here, now, fun before known => ?_⟩
      rw [here, own] at known
      cases seeded with
      | known serial =>
        cases serial.symm.trans known
        exact Std.le_of_lt (lt_add_one_of_toNat room)
      | found unknown => cases unknown.symm.trans known
    · exact .inl rfl
  cases put with
  | failed store =>
    refine ⟨none, .of_quiet retains store rfl fun other => ?_⟩
    rw [Except.toBool, serials]
    split
    · next here => rw [here, own]
    · rfl
  | refused usable seeded room store =>
    refine ⟨none, .of_unstored retains store rfl fun other => ?_⟩
    rcases taken seeded room rfl false other with same | ⟨-, now, rises⟩
    · exact .inl same
    · exact .inr ⟨_, now, rises, offered usable seeded room⟩
  | @stored last link' _ usable seeded room grown finds =>
    refine ⟨some (.ofRecord (r.withSerial (last + 1)), some number), ?_⟩
    constructor
    · simp only [had, Except.toBool, if_true, same, Option.getD_some, Option.toList_some]
    · rw [Option.toList_some, List.map_append, List.map_singleton]
      exact grown
    · exact finds
    · intro entry new other mine
      cases new
      cases mine
      refine ⟨author, w, last, link', there, seeded, room, rfl, ?_⟩
      rw [serials, if_pos rfl]
    · intro entry new nobody
      cases new
      cases nobody
    · exact fun _ => offered usable seeded room
    · intro other
      rcases taken seeded room rfl true other with same | ⟨rfl, now, rises⟩
      · exact .inl same
      · refine .inr ⟨_, now, rises, offered usable seeded room, ?_⟩
        intro entry new
        cases new
        exact ⟨rfl, rfl⟩

/-- A new writer has no number, and leaves those of the others. -/
theorem serialOf_create (s : Crew) (enabled : Bool) (number : Nat) :
    (s.next (.create enabled)).serialOf number = s.serialOf number := by
  simp only [serialOf, next]
  rcases Nat.lt_trichotomy number s.writers.length with inside | rfl | outside
  · rw [List.getElem?_append_left inside]
  · rw [List.getElem?_concat_length, List.getElem?_eq_none (Nat.le_refl _)]
    rfl
  · rw [List.getElem?_eq_none (Nat.le_of_lt outside), List.getElem?_eq_none]
    rw [List.length_append, List.length_singleton]
    exact outside

theorem serialOf_enable (s : Crew) (number : Nat) (on : Bool) (other : Nat) :
    (s.next (.enable number on)).serialOf other = s.serialOf other := by
  simp only [serialOf, next, List.getElem?_modify]
  cases s.writers[other]? with
  | none => rfl
  | some w =>
    simp only [Option.map_eq_map, Option.map_some, Option.bind_some]
    split <;> rfl

/-- A writer that is enabled is handed a record by a write, and one that is not does nothing. -/
theorem stepped_handle (retains : s.link.store.Retains ((s.log docs).map (·.1)))
    (keeps : s.Keeps (.handle number r)) (there : s.writers[number]? = some w) :
    ∃ added, Stepped docs s (.handle number r) (s.next (.handle number r)) added := by
  simp only [Keeps, document?, there, Option.bind_some] at keeps
  simp only [next, there]
  by_cases on : w.enabled = true
  · rw [if_pos on] at keeps
    have document : s.document? (.handle number r) = w.document? r s.link := by
      rw [document?, there, Option.bind_some, if_pos on]
    have put := Writer.put retains keeps
    have handled := w.handled r on s.link
    generalize w.handle r s.link = result at handled ⊢
    rcases written : w.write r s.link with ⟨answer, writer, link⟩
    rw [written] at put
    cases handled with
    | stored stored =>
      rw [written] at stored ⊢
      cases stored
      rw [on]
      exact stepped_had retains there rfl document put rfl
    | counted failed _ | brokenOff failed _ =>
      rw [written] at failed ⊢
      cases failed
      exact stepped_had retains there rfl document put rfl
  · have off : w.enabled = false := by simpa using on
    simp only [Writer.handle_of_disabled off, off]
    refine ⟨none, .of_quiet retains rfl rfl fun other => ?_⟩
    rw [serialOf_had there]
    split
    · next here => rw [here, serialOf, there, Option.bind_some]
    · rfl

/-- A sentinel belongs to no writer and has no number but zero. -/
theorem stepped_anchor (retains : s.link.store.Retains ((s.log docs).map (·.1))) {time : Instant}
    (keeps : s.Keeps (.anchor time)) :
    ∃ added, Stepped docs s (.anchor time) (s.next (.anchor time)) added := by
  have inserted := retains.insert_link (keeps _ rfl)
  simp only [next]
  generalize s.link.insert (.ofRecord (.sentinel time)) = answer at inserted ⊢
  obtain ⟨result, link⟩ := answer
  rcases inserted with ⟨rfl, grown, finds⟩ | ⟨e, rfl, same⟩
  · refine ⟨some (.ofRecord (.sentinel time), none), rfl, ?_, finds, ?_, ?_, fun _ => rfl,
      fun _ => .inl rfl⟩
    · rw [Option.toList_some, List.map_append, List.map_singleton]
      exact grown
    · intro entry new number mine
      cases new
      cases mine
    · intro entry new _
      cases new
      rfl
  · exact ⟨none, .of_quiet retains same rfl fun _ => rfl⟩

/-- Every action that removes nothing comes to such a step. -/
theorem stepped (retains : s.link.store.Retains ((s.log docs).map (·.1))) (keeps : s.Keeps action) :
    ∃ added, Stepped docs s action (s.next action) added := by
  cases action with
  | create enabled => exact ⟨none, .of_quiet retains rfl rfl (s.serialOf_create enabled)⟩
  | enable number on => exact ⟨none, .of_quiet retains rfl rfl (s.serialOf_enable number on)⟩
  | write number r =>
    simp only [Keeps, document?] at keeps
    cases there : s.writers[number]? with
    | none =>
      simp only [next, there]
      exact ⟨none, .of_quiet retains rfl rfl fun _ => rfl⟩
    | some w =>
      rw [there] at keeps
      simp only [next, there]
      have document : s.document? (.write number r) = w.document? r s.link := by
        rw [document?, there, Option.bind_some]
      exact stepped_had retains there rfl document (Writer.put retains keeps) rfl
  | handle number r =>
    cases there : s.writers[number]? with
    | none =>
      simp only [next, there]
      exact ⟨none, .of_quiet retains rfl rfl fun _ => rfl⟩
    | some w => exact stepped_handle retains keeps there
  | anchor time => exact stepped_anchor retains keeps
  | arm call n => exact ⟨none, .of_quiet retains rfl rfl fun _ => rfl⟩

theorem Stepped.log_eq {added : Option (Document × Option Nat)}
    (step : Stepped docs s action s' added) : s'.log docs = s.log docs ++ added.toList := by
  rw [log, step.stored_eq, ← List.append_assoc, log]

/-! ## What every action keeps -/

/-- The store has all documents, and what a writer stored is not above its number and rises. -/
structure Inv (docs : List Document) (s : Crew) : Prop where
  retains : s.link.store.Retains ((s.log docs).map (·.1))
  known_le : ∀ entry ∈ s.stored, ∀ number, entry.2 = some number →
    ∃ last, s.serialOf number = some last ∧ entry.1.serial ≤ last
  own : s.stored.Pairwise fun a b => b.2.isSome → a.2 = b.2 → a.1.serial < b.1.serial

/-- No number is left out below one that was assigned. -/
structure Gapless (docs : List Document) (s : Crew) : Prop where
  closed : ∀ entry ∈ s.log docs, ∀ n, 0 < n → n ≤ entry.1.serial →
    ∃ other ∈ s.log docs, other.1.serial = n
  known : ∀ number last, s.serialOf number = some last →
    last = 0 ∨ ∃ entry ∈ s.log docs, entry.1.serial = last

/-- A writer that is abreast goes on from a number that no document is above that is found. -/
theorem Abreast.le_seeded (h : s.Abreast number)
    (retains : s.link.store.Retains ((s.log docs).map (·.1))) (there : s.writers[number]? = some w)
    {last : UInt64} {link' : Link} (seeded : w.Seeded s.link last link')
    {entry : Document × Option Nat} (member : entry ∈ s.log docs)
    (found : (s.link.store.finds? entry.1).isSome) : entry.1.serial ≤ last := by
  cases seeded with
  | known serial =>
    have told := retains.lastSerial_eq
    have highest := retains.le_of_lastSerial told (List.mem_map_of_mem member) found
    exact Std.le_trans highest (h w there last serial _ (by rw [told]; rfl))
  | found unknown answer =>
    exact retains.le_of_lastSerial (Link.told_of_lastSerial answer) (List.mem_map_of_mem member)
      found

/-- A writer that was overtaken has a number below one that the store tells. -/
theorem exists_lt_of_not_abreast (overtaken : ¬s.Abreast number)
    (there : s.writers[number]? = some w) {highest : Option UInt64}
    (told : s.link.store.lastSerial = .ok highest) :
    ∃ last, w.serial = some last ∧ last < highest.getD 0 := by
  by_contra nowhere
  refine overtaken fun w' same last serial other tells => ?_
  rw [there] at same
  cases same
  rw [told] at tells
  cases tells
  exact UInt64.not_lt.mp fun below => nowhere ⟨last, serial, below⟩

namespace Inv

variable {added : Option (Document × Option Nat)}

theorem start {link : Link} (retains : link.store.Retains docs) : Inv docs (Crew.start link) where
  retains := by
    have same : ((Crew.start link).log docs).map (·.1) = docs := by
      simp only [log, Crew.start, List.append_nil, List.map_map]
      exact List.map_id docs
    rw [same]
    exact retains
  known_le := by
    intro _ none
    cases none
  own := .nil

/-- What a writer goes on from is not below any number that it has assigned. -/
theorem le_seeded (h : s.Inv docs) (there : s.writers[number]? = some w) {last : UInt64}
    {link' : Link} (seeded : w.Seeded s.link last link') :
    ∀ entry ∈ s.log docs, entry.2 = some number → entry.1.serial ≤ last := by
  intro entry member mine
  rcases List.mem_append.mp member with old | new
  · obtain ⟨d, -, rfl⟩ := List.mem_map.mp old
    cases mine
  · obtain ⟨known, serial, le⟩ := h.known_le entry new number mine
    rw [serialOf, there, Option.bind_some] at serial
    cases seeded with
    | known same =>
      rw [serial] at same
      exact Option.some.inj same ▸ le
    | found unknown => cases unknown.symm.trans serial

theorem step (h : s.Inv docs) (step : Stepped docs s action s' added) : s'.Inv docs where
  retains := by
    rw [step.log_eq]
    exact step.retains
  known_le := by
    rw [step.stored_eq]
    intro entry member number mine
    rcases List.mem_append.mp member with old | new
    · obtain ⟨last, known, le⟩ := h.known_le entry old number mine
      rcases step.serials number with same | ⟨later, now, rises, -⟩
      · exact ⟨last, same.trans known, le⟩
      · exact ⟨later, now, Std.le_trans le (rises last known)⟩
    · obtain ⟨-, w, last, link', -, -, -, serial, now⟩ :=
        step.assigned entry (Option.mem_toList.mp new) number mine
      exact ⟨last + 1, now, Std.le_of_eq serial⟩
  own := by
    rw [step.stored_eq, List.pairwise_append]
    refine ⟨h.own, ?_, ?_⟩
    · cases added with
      | none => exact .nil
      | some entry => exact List.pairwise_singleton _ _
    · intro earlier member later new someone mine
      obtain ⟨number, author⟩ := Option.isSome_iff_exists.mp someone
      obtain ⟨-, w, last, link', there, seeded, room, serial, -⟩ :=
        step.assigned later (Option.mem_toList.mp new) number author
      have le := h.le_seeded there seeded earlier (List.mem_append_right _ member)
        (mine.trans author)
      rw [serial]
      exact Std.lt_of_le_of_lt le (lt_add_one_of_toNat room)

/-- If the writer is not overtaken, its number is above all that are found, too. -/
theorem rises (h : s.Inv docs) (step : Stepped docs s action s' added) (yields : s.Yields action)
    (rising : (s.log docs).Pairwise (Relay.Rises s.link.store)) :
    (s'.log docs).Pairwise (Relay.Rises s'.link.store) := by
  have same : Relay.Rises s'.link.store = Relay.Rises s.link.store := by
    funext a b
    simp only [Relay.Rises, Relay.Knows, step.finds]
  rw [same, step.log_eq, List.pairwise_append]
  refine ⟨rising, ?_, ?_⟩
  · cases added with
    | none => exact .nil
    | some entry => exact List.pairwise_singleton _ _
  · intro earlier member later new number author knows
    have there := Option.mem_toList.mp new
    obtain ⟨writes, w, last, link', writer, seeded, room, serial, -⟩ :=
      step.assigned later there number author
    have abreast := yields (step.document (Option.isSome_of_mem there)) number writes
    have le : earlier.1.serial ≤ last := by
      rcases knows with own | found
      · exact h.le_seeded writer seeded earlier member own
      · exact abreast.le_seeded h.retains writer seeded member found
    rw [serial]
    exact Std.lt_of_le_of_lt le (lt_add_one_of_toNat room)

/-- The highest number that the store tells is that of a document. -/
theorem exists_highest (h : s.Inv docs) {highest : Option UInt64}
    (told : s.link.store.lastSerial = .ok highest) :
    highest.getD 0 = 0 ∨ ∃ entry ∈ s.log docs, entry.1.serial = highest.getD 0 := by
  cases highest with
  | none => exact .inl rfl
  | some n =>
    obtain ⟨d, member, same⟩ := h.retains.exists_of_lastSerial told
    obtain ⟨entry, listed, rfl⟩ := List.mem_map.mp member
    exact .inr ⟨entry, listed, same⟩

/-- What a writer goes on from is the number of a document, as long as none was left out. -/
theorem exists_seeded (h : s.Inv docs) (gapless : s.Gapless docs)
    (there : s.writers[number]? = some w) {last : UInt64} {link' : Link}
    (seeded : w.Seeded s.link last link') :
    last = 0 ∨ ∃ entry ∈ s.log docs, entry.1.serial = last := by
  cases seeded with
  | known serial =>
    apply gapless.known number
    rw [serialOf, there, Option.bind_some, serial]
  | found _ answer => exact h.exists_highest (Link.told_of_lastSerial answer)

/-- A document that is accepted leaves no number out. -/
theorem gapless (h : s.Inv docs) (step : Stepped docs s action s' added)
    (accepts : (s.document? action).isSome → s'.stored ≠ s.stored) (gapless : s.Gapless docs) :
    s'.Gapless docs where
  closed := by
    intro entry member n positive le
    rw [step.log_eq] at member ⊢
    rcases List.mem_append.mp member with old | new
    · obtain ⟨other, listed, same⟩ := gapless.closed entry old n positive le
      exact ⟨other, List.mem_append_left _ listed, same⟩
    · cases author : entry.2 with
      | none =>
        rw [step.foreign entry (Option.mem_toList.mp new) author] at le
        exact absurd (Std.lt_of_lt_of_le positive le) (UInt64.lt_irrefl _)
      | some number =>
        obtain ⟨-, w, last, link', there, seeded, room, serial, -⟩ :=
          step.assigned entry (Option.mem_toList.mp new) number author
        by_cases last_one : n = entry.1.serial
        · exact ⟨entry, member, last_one.symm⟩
        · have below : n ≤ last := by
            rw [serial] at le last_one
            exact (lt_add_one_iff_of_toNat room).mp (UInt64.lt_of_le_of_ne le last_one)
          rcases h.exists_seeded gapless there seeded with rfl | ⟨before, listed, rfl⟩
          · exact absurd (Std.lt_of_lt_of_le positive below) (UInt64.lt_irrefl _)
          · obtain ⟨other, earlier, same⟩ := gapless.closed before listed n positive below
            exact ⟨other, List.mem_append_left _ earlier, same⟩
  known := by
    intro number last known
    rw [step.log_eq]
    rcases step.serials number with same | ⟨later, now, -, offered, all⟩
    · rcases gapless.known number last (same.symm.trans known) with zero | ⟨entry, member, serial⟩
      · exact .inl zero
      · exact .inr ⟨entry, List.mem_append_left _ member, serial⟩
    · rw [now] at known
      cases known
      cases added with
      | none =>
        have same := step.stored_eq
        rw [Option.toList_none, List.append_nil] at same
        exact absurd same (accepts offered)
      | some entry =>
        exact .inr ⟨entry, List.mem_append_right _ List.mem_cons_self, (all entry rfl).2⟩

theorem run (h : s.Inv docs) {actions : List Action} (keeping : s.All Keeps actions) :
    (s.run actions).Inv docs := by
  refine keeping.run (fun s action inv keeps => ?_) h
  obtain ⟨added, step⟩ := stepped inv.retains keeps
  exact inv.step step

theorem run_rises (h : s.Inv docs) {actions : List Action} (keeping : s.All Keeps actions)
    (yielding : s.All Yields actions) (rising : (s.log docs).Pairwise (Relay.Rises s.link.store)) :
    ((s.run actions).log docs).Pairwise (Relay.Rises (s.run actions).link.store) := by
  let Q (s : Crew) : Prop := s.Inv docs ∧ (s.log docs).Pairwise (Relay.Rises s.link.store)
  suffices both : Q (s.run actions) from both.2
  refine (keeping.and yielding).run ?_ ⟨h, rising⟩
  rintro s action ⟨inv, rising⟩ ⟨keeps, yields⟩
  obtain ⟨added, step⟩ := stepped inv.retains keeps
  exact ⟨inv.step step, inv.rises step yields rising⟩

theorem run_gapless (h : s.Inv docs) {actions : List Action} (keeping : s.All Keeps actions)
    (accepting : s.All Accepts actions) (gapless : s.Gapless docs) :
    (s.run actions).Gapless docs := by
  let Q (s : Crew) : Prop := s.Inv docs ∧ s.Gapless docs
  suffices both : Q (s.run actions) from both.2
  refine (keeping.and accepting).run ?_ ⟨h, gapless⟩
  rintro s action ⟨inv, gapless⟩ ⟨keeps, accepts⟩
  obtain ⟨added, step⟩ := stepped inv.retains keeps
  exact ⟨inv.step step, inv.gapless step accepts gapless⟩

/-- The next number of a writer is that of a document exactly if the writer was overtaken. -/
theorem taken_iff (h : s.Inv docs) (gapless : s.Gapless docs)
    (found : ∀ entry ∈ s.log docs, (s.link.store.finds? entry.1).isSome)
    (there : s.writers[number]? = some w) (usable : w.unusable = false) :
    (∃ entry ∈ s.log docs, (w.nextSerial s.link).1 = .ok entry.1.serial) ↔ ¬s.Abreast number := by
  constructor
  · rintro ⟨entry, member, taken⟩ abreast
    obtain ⟨-, last, link', seeded, room, serial⟩ := Writer.seeded_of_nextSerial taken
    have le := abreast.le_seeded h.retains there seeded member (found entry member)
    rw [serial] at le
    exact absurd (Std.lt_of_lt_of_le (lt_add_one_of_toNat room) le) (UInt64.lt_irrefl _)
  · intro overtaken
    have told := h.retains.lastSerial_eq
    generalize Document.highestSerial? _ = highest at told
    obtain ⟨last, serial, below⟩ := exists_lt_of_not_abreast overtaken there told
    have room : last.toNat + 1 < UInt64.size :=
      Nat.lt_of_le_of_lt (UInt64.lt_iff_toNat_lt.mp below) (UInt64.toNat_lt_size _)
    have positive : 0 < last + 1 :=
      Std.lt_of_le_of_lt UInt64.zero_le (lt_add_one_of_toNat room)
    have le : last + 1 ≤ highest.getD 0 := by
      apply UInt64.not_lt.mp
      intro above
      have le := (lt_add_one_iff_of_toNat room).mp above
      exact UInt64.lt_irrefl _ (Std.lt_of_lt_of_le below le)
    obtain ⟨entry, listed, same⟩ : ∃ entry ∈ s.log docs, entry.1.serial = highest.getD 0 := by
      refine (h.exists_highest told).resolve_left fun zero => ?_
      rw [zero] at le
      exact UInt64.lt_irrefl _ (Std.lt_of_lt_of_le positive le)
    obtain ⟨other, listed, serial'⟩ :=
      gapless.closed entry listed (last + 1) positive (same ▸ le)
    refine ⟨other, listed, ?_⟩
    rw [Writer.nextSerial_seeded usable (.known serial), Writer.takeAfter, if_pos room, serial']

end Inv

/-- If the numbers of all documents that are found rise, so do those of the positions. -/
theorem rising_positions (rising : (s.log docs).Pairwise (Relay.Rises s.link.store))
    (found : ∀ entry ∈ s.log docs, (s.link.store.finds? entry.1).isSome) :
    s.positions.Pairwise fun p q => p.serial < q.serial := by
  have stored := (List.pairwise_append.mp rising).2.1.filter (·.2.isSome)
  refine List.pairwise_map.mpr (stored.imp_of_mem ?_)
  intro a b earlier later rises
  obtain ⟨number, author⟩ := Option.isSome_iff_exists.mp (List.mem_filter.mp later).2
  have listed := List.mem_append_right (docs.map (·, none)) (List.mem_filter.mp earlier).1
  exact rises number author (.inr (found a listed))

/-- Any writers are used side by side on a store from which nothing is removed, in any order, while
readers put sentinels in between, and calls fail. What one of them stores has a higher serial number
than all that it stored before. If none of them writes that was overtaken, then it also has a higher
one than all documents that are found, and if all are found then the positions are different and in
a strict order. And this is needed: as long as no number was left out, a writer that was overtaken,
and only such a writer, takes a number that is already there, so that a record of that document's
time gets its position. -/
theorem positions_ordered_while_abreast {link : Link} {actions : List Action}
    (retains : link.store.Retains docs) (keeping : (start link).All Keeps actions) :
    let s := (start link).run actions
    let log := s.log docs
    s.link.store.Retains (log.map (·.1)) ∧
    s.link.store.documents = .ok ((log.map (·.1)).filterMap s.link.store.finds?) ∧
    (s.stored.Pairwise fun a b => b.2.isSome → a.2 = b.2 → a.1.serial < b.1.serial) ∧
    ((start link).All Yields actions →
      log.Pairwise (Relay.Rises s.link.store) ∧
      ((∀ entry ∈ log, (s.link.store.finds? entry.1).isSome) → s.positions.Nodup ∧
        IsStrictTotalOrder (Fin s.positions.length) fun i j => s.positions[i] < s.positions[j])) ∧
    ((start link).Gapless docs → (start link).All Accepts actions →
      (∀ entry ∈ log, (s.link.store.finds? entry.1).isSome) →
        ∀ number w, s.writers[number]? = some w → w.unusable = false →
          ((∃ entry ∈ log, (w.nextSerial s.link).1 = .ok entry.1.serial ∧
              ∀ r p, r.time = entry.1.time → (w.write r s.link).1 = .ok p →
                p = entry.1.position) ↔
            ¬s.Abreast number)) := by
  intro s log
  have start := Inv.start retains
  have inv : s.Inv docs := start.run keeping
  refine ⟨inv.retains, inv.retains.documents_eq, inv.own, ?_, ?_⟩
  · intro yielding
    have nothing : ((Crew.start link).log docs).Pairwise (Relay.Rises link.store) := by
      simp only [Crew.log, Crew.start, List.append_nil, List.pairwise_map]
      exact List.pairwise_of_forall fun _ _ _ other => nomatch other
    have rising := start.run_rises keeping yielding nothing
    refine ⟨rising, fun found => ?_⟩
    have numbers := rising_positions rising found
    refine ⟨numbers.imp ?_, Position.isStrictTotalOrder_of_rising numbers⟩
    rintro p q lower rfl
    exact UInt64.lt_irrefl _ lower
  · intro gapless accepting found number w there usable
    rw [← inv.taken_iff (start.run_gapless keeping accepting gapless) found there usable]
    constructor
    · rintro ⟨entry, member, taken, -⟩
      exact ⟨entry, member, taken⟩
    · rintro ⟨entry, member, taken⟩
      refine ⟨entry, member, taken, ?_⟩
      intro r p time written
      obtain ⟨same, next⟩ := Writer.nextSerial_of_write written
      have serial : entry.1.serial = p.serial := Except.ok.inj (taken.symm.trans next)
      rw [Document.position, ← time, serial, ← same]

/-- The writer that wrote first is overtaken by one that is enabled later: its second record gets
the number of the other's first, and at the same time the same position. -/
theorem positions_ordered_until_overtaken :
    let t : Instant := ⟨0, 500000000, by decide, by decide, by decide, by decide⟩
    let r : Record := .atTime t "shop" "Orders" "placed" []
    let actions : List Action :=
      [.create true, .write 0 r, .create false, .enable 1 true, .handle 1 r]
    let first := start (.reliable (.memory .unbounded))
    let s := first.run actions
    first.All Keeps actions ∧ s.positions.Nodup ∧ ¬s.Abreast 0 ∧
      ¬(s.next (.write 0 r)).positions.Nodup := by
  intro t r actions first s
  have empty : (Link.reliable (.memory .unbounded)).store.Retains [] := rfl
  have keeping : first.All Keeps actions := by decide +kernel
  have yielding : first.All Yields actions := by decide +kernel
  obtain ⟨-, -, -, ordered, -⟩ := positions_ordered_while_abreast empty keeping
  have found : ∀ entry ∈ s.log [], (s.link.store.finds? entry.1).isSome := by decide +kernel
  exact ⟨keeping, ((ordered yielding).2 found).1, by decide +kernel, by decide +kernel⟩

end Crew

end TraceJournal
