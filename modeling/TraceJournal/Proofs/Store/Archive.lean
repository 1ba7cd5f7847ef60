import TraceJournal.Proofs.Segment.Whole
import TraceJournal.Proofs.Store.Retained
import TraceJournal.Proofs.Store.Sliding

/-!
# Stores beside all that they ever accepted

Insertions push documents out, a store in memory is cleared, a segment store is opened again: what
is left in a store are always the last of the documents that it ever accepted. The highest serial
number that a store tells is the one among the documents that it still finds. So it covers all
documents ever accepted exactly as long as one with the highest number of all is still found.
-/

namespace TraceJournal

namespace Store

/-- The store after all documents were removed; only a store in memory can be cleared. -/
def cleared : Store → Store
  | memory s => memory s.clear
  | segment s disk => segment s disk

/-- The store after it was opened again under its path, with another bound; a store in memory is
not opened. -/
def reopened (maxSize : Nat) : Store → Store
  | memory s => memory s
  | segment s disk =>
    let (result, disk) := Segment.openAt s.path maxSize disk
    segment (result.toOption.getD s) disk

/-- The document would be in the store, and be found, after its insertion. In memory the newest
document always is. -/
def KeepsLatest (d : Document) : Store → Prop
  | memory _ => True
  | segment s _ => s.KeepsLatest d

variable {store : Store} {docs : List Document}

theorem KeepsLatest.exists_finds {d : Document} (h : store.KeepsLatest d) :
    ∃ d', store.finds? d = some d' := by
  cases store with
  | memory s => exact ⟨d, rfl⟩
  | segment s disk => exact Option.isSome_iff_exists.mp h.1

namespace Retains

/-- After an insertion the last documents are left, and if the store keeps the newest document then
it is one of them. -/
theorem exists_insert_suffix (h : store.Retains docs) {d : Document}
    (accepted : (store.insert d).1 = .ok ()) :
    ∃ left, left <:+ docs ++ [d] ∧ (store.insert d).2.Retains left ∧
      (store.KeepsLatest d → d ∈ left) := by
  cases store with
  | memory s =>
    have held : s.documents = docs := h
    have suffix : (s.insert d).documents <:+ docs ++ [d] := by
      rw [← held]
      exact List.drop_suffix _ _
    exact ⟨(s.insert d).documents, suffix, rfl,
      fun _ => List.mem_of_getLast? (s.getLast?_insert d)⟩
  | segment s disk =>
    obtain ⟨sole, bytes, fits⟩ := h
    have still := sole.insert d
    rw [insert_segment] at accepted ⊢
    simp only at accepted
    obtain ⟨left, suffix, whole, short, kept⟩ := sole.exists_insert_suffix bytes fits accepted
    refine ⟨left, suffix, ⟨still, whole, short⟩, fun keeps => ?_⟩
    -- The last of the documents is the one that was inserted.
    rcases List.suffix_concat_iff.mp suffix with none_left | ⟨front, rfl, -⟩
    · exact absurd none_left (kept keeps)
    · exact List.mem_append_right _ List.mem_cons_self

theorem cleared (h : store.Retains docs) : ∃ left, left <:+ docs ∧ store.cleared.Retains left := by
  cases store with
  | memory s => exact ⟨[], List.nil_suffix, rfl⟩
  | segment s disk => exact ⟨docs, List.suffix_rfl, h⟩

theorem reopened (h : store.Retains docs) (maxSize : Nat) :
    (store.reopened maxSize).Retains docs := by
  cases store with
  | memory s => exact h
  | segment s disk =>
    obtain ⟨sole, bytes, fits⟩ := h
    obtain ⟨s', disk', opened, same⟩ := Segment.openAt_of_file sole.inPlace.file_path maxSize
    simp only [Store.reopened, opened]
    exact ⟨.of_openAt opened, same.trans bytes, fits⟩

end Retains

end Store

/-- A store and all documents that it ever accepted. -/
structure Archive where
  store : Store
  accepted : List Document

namespace Archive

/-- What happens to an archive. -/
inductive Action where
  /-- A document is inserted. -/
  | insert (d : Document)
  /-- A store in memory is cleared. -/
  | clear
  /-- A segment store is opened again, with another bound. -/
  | reopen (maxSize : Nat)

/-- The archive after an action. -/
def next (a : Archive) : Action → Archive
  | .insert d =>
    let (result, store) := a.store.insert d
    ⟨store, if result.isOk then a.accepted ++ [d] else a.accepted⟩
  | .clear => { a with store := a.store.cleared }
  | .reopen maxSize => { a with store := a.store.reopened maxSize }

/-- The archive after some actions. -/
def run (a : Archive) (actions : List Action) : Archive := actions.foldl next a

theorem run_append (a : Archive) (before after : List Action) :
    a.run (before ++ after) = (a.run before).run after := List.foldl_append

/-- The store has a part of the accepted documents: an end of the list of all. -/
structure Has (a : Archive) (kept : List Document) : Prop where
  retains : a.store.Retains kept
  suffix : kept <:+ a.accepted

/-- The store tells a serial number that no accepted document is above. -/
def Covers (a : Archive) (n : UInt64) : Prop :=
  a.store.lastSerial = .ok (some n) ∧ ∀ d ∈ a.accepted, d.serial ≤ n

/-- A document is found that has the highest serial number of all that were accepted. -/
def FindsHighest (a : Archive) : Prop :=
  ∃ docs, a.store.documents = .ok docs ∧ ∃ d ∈ docs, ∀ e ∈ a.accepted, e.serial ≤ d.serial

namespace Has

variable {a : Archive} {kept : List Document}

/-- An insertion that is accepted. -/
theorem exists_insert (h : a.Has kept) {d : Document} (accepted : (a.store.insert d).1 = .ok ()) :
    (a.next (.insert d)).accepted = a.accepted ++ [d] ∧ ∃ left, (a.next (.insert d)).Has left ∧
      (a.store.KeepsLatest d → d ∈ left) := by
  obtain ⟨left, suffix, retains, latest⟩ := h.retains.exists_insert_suffix accepted
  have grown : a.next (.insert d) = ⟨(a.store.insert d).2, a.accepted ++ [d]⟩ := by
    simp only [next, accepted]
    rfl
  have behind : kept ++ [d] <:+ a.accepted ++ [d] :=
    (List.suffix_append_inj_of_length_eq rfl).mpr ⟨h.suffix, rfl⟩
  rw [grown]
  exact ⟨rfl, left, ⟨retains, suffix.trans behind⟩, latest⟩

/-- The store has a part of the accepted documents after every action, too, and the accepted ones
only become more. -/
theorem next (h : a.Has kept) (action : Action) :
    (∃ left, (a.next action).Has left) ∧ a.accepted <+: (a.next action).accepted := by
  cases action with
  | insert d =>
    cases accepted : (a.store.insert d).1 with
    | ok _ =>
      obtain ⟨grown, left, has, -⟩ := h.exists_insert accepted
      exact ⟨⟨left, has⟩, grown ▸ List.prefix_append _ _⟩
    | error e =>
      have same : a.next (.insert d) = a := by
        simp only [Archive.next, accepted, h.retains.sole.insert_error accepted]
        rfl
      rw [same]
      exact ⟨⟨kept, h⟩, List.prefix_rfl⟩
  | clear =>
    obtain ⟨left, suffix, retains⟩ := h.retains.cleared
    exact ⟨⟨left, retains, suffix.trans h.suffix⟩, List.prefix_rfl⟩
  | reopen maxSize => exact ⟨⟨kept, h.retains.reopened maxSize, h.suffix⟩, List.prefix_rfl⟩

theorem run (h : a.Has kept) (actions : List Action) :
    (∃ left, (a.run actions).Has left) ∧ a.accepted <+: (a.run actions).accepted := by
  induction actions generalizing a kept with
  | nil => exact ⟨⟨kept, h⟩, List.prefix_rfl⟩
  | cons action rest ih =>
    obtain ⟨⟨left, has⟩, grown⟩ := h.next action
    obtain ⟨exists_left, later⟩ := ih has
    exact ⟨exists_left, grown.trans later⟩

/-! ## The highest serial number -/

/-- The number that the store tells covers all accepted documents exactly if one of those with the
highest number is found. -/
theorem covers_iff (h : a.Has kept) : (∃ n, a.Covers n) ↔ a.FindsHighest := by
  have told := h.retains.lastSerial_eq
  have found := h.retains.documents_eq
  constructor
  · rintro ⟨n, tells, above⟩
    rw [told] at tells
    obtain ⟨d, listed, rfl⟩ := Document.exists_mem_of_highestSerial? (Except.ok.inj tells)
    exact ⟨_, found, d, listed, above⟩
  · rintro ⟨docs, all, d, member, above⟩
    rw [found] at all
    cases all
    obtain ⟨n, highest, le⟩ := Document.exists_highestSerial? member
    rw [highest] at told
    exact ⟨n, told, fun e he => Std.le_trans (above e he) le⟩

/-- A number that the store tells is that of an accepted document. -/
theorem exists_of_lastSerial (h : a.Has kept) {n : UInt64}
    (tells : a.store.lastSerial = .ok (some n)) : ∃ d ∈ a.accepted, d.serial = n := by
  obtain ⟨d, member, same⟩ := h.retains.exists_of_lastSerial tells
  exact ⟨d, h.suffix.subset member, same⟩

/-- No accepted document is above the number from which a writer goes on exactly if the store covers
them all, or none of them has a number but zero. -/
theorem le_getD_iff (h : a.Has kept) {highest : Option UInt64}
    (tells : a.store.lastSerial = .ok highest) :
    (∀ d ∈ a.accepted, d.serial ≤ highest.getD 0) ↔
      a.FindsHighest ∨ ∀ d ∈ a.accepted, d.serial = 0 := by
  rw [← h.covers_iff]
  constructor
  · intro above
    cases highest with
    | none => exact .inr fun d hd => UInt64.le_zero_iff.mp (above d hd)
    | some n => exact .inl ⟨n, tells, above⟩
  · rintro (⟨n, covers, above⟩ | zero)
    · rw [covers] at tells
      cases tells
      exact above
    · intro d hd
      rw [zero d hd]
      exact UInt64.zero_le

/-- After the insertion of a document that the store keeps, it tells a number that is not below the
document's. -/
theorem exists_lastSerial_insert (h : a.Has kept) {d : Document}
    (accepted : (a.store.insert d).1 = .ok ()) (keeps : a.store.KeepsLatest d) :
    ∃ n, (a.next (.insert d)).store.lastSerial = .ok (some n) ∧ d.serial ≤ n := by
  obtain ⟨-, left, has, latest⟩ := h.exists_insert accepted
  obtain ⟨d', finds⟩ := keeps.exists_finds
  have serial : d'.serial = d.serial := congrArg Position.serial (Store.position_of_finds? finds)
  have store : (a.next (.insert d)).store = (a.store.insert d).2 := rfl
  have listed : d' ∈ left.filterMap (a.next (.insert d)).store.finds? := by
    refine List.mem_filterMap.mpr ⟨d, latest keeps, ?_⟩
    rw [store, Store.finds?_insert, finds]
  obtain ⟨n, highest, le⟩ := Document.exists_highestSerial? listed
  have told := has.retains.lastSerial_eq
  rw [highest] at told
  exact ⟨n, told, serial ▸ le⟩

/-- If moreover no accepted document has a higher number, then the number covers all of them. -/
theorem covers_insert (h : a.Has kept) {d : Document} (accepted : (a.store.insert d).1 = .ok ())
    (keeps : a.store.KeepsLatest d) (above : ∀ e ∈ a.accepted, e.serial ≤ d.serial) :
    (a.next (.insert d)).Covers d.serial := by
  obtain ⟨grown, left, has, -⟩ := h.exists_insert accepted
  obtain ⟨n, told, le⟩ := h.exists_lastSerial_insert accepted keeps
  have all : ∀ e ∈ (a.next (.insert d)).accepted, e.serial ≤ d.serial := by
    rw [grown]
    exact List.forall_mem_append.mpr ⟨above, List.forall_mem_singleton.mpr (Std.le_refl _)⟩
  -- The number that is told is that of one of them.
  obtain ⟨e, member, rfl⟩ := has.exists_of_lastSerial told
  have same : e.serial = d.serial := UInt64.le_antisymm (all e member) le
  rw [same] at told
  exact ⟨told, all⟩

/-- An insertion that pushes nothing out leaves the highest number found, unless the document has a
higher one and is not found itself. -/
theorem findsHighest_insert (h : a.Has kept) {d : Document} (keeps : a.store.Keeps d)
    (finds : (a.store.finds? d).isSome ∨ ∃ e ∈ a.accepted, d.serial ≤ e.serial)
    (highest : a.FindsHighest) : (a.next (.insert d)).FindsHighest := by
  obtain ⟨docs, all, top, listed, above⟩ := highest
  rw [h.retains.documents_eq] at all
  cases all
  rcases h.retains.insert keeps with ⟨accepted, retains⟩ | ⟨e, refused, same⟩
  · obtain ⟨grown, -⟩ := h.exists_insert accepted
    have one : [d].filterMap a.store.finds? = (a.store.finds? d).toList := by
      rw [List.filterMap_cons, List.filterMap_nil]
      cases a.store.finds? d <;> rfl
    have found : (a.next (.insert d)).store.documents =
        .ok (kept.filterMap a.store.finds? ++ (a.store.finds? d).toList) := by
      rw [show (a.next (.insert d)).store = (a.store.insert d).2 from rfl, retains.documents_eq,
        funext (a.store.finds?_insert · d), List.filterMap_append, one]
    rw [FindsHighest, grown]
    refine ⟨_, found, ?_⟩
    by_cases below : d.serial ≤ top.serial
    · exact ⟨top, List.mem_append_left _ listed,
        List.forall_mem_append.mpr ⟨above, List.forall_mem_singleton.mpr below⟩⟩
    · have some_found : (a.store.finds? d).isSome := by
        rcases finds with found | ⟨e, he, le⟩
        · exact found
        · exact absurd (Std.le_trans le (above e he)) below
      obtain ⟨d', finds⟩ := Option.isSome_iff_exists.mp some_found
      have serial : d'.serial = d.serial :=
        congrArg Position.serial (Store.position_of_finds? finds)
      refine ⟨d', List.mem_append_right _ (by simp [finds]), ?_⟩
      rw [serial]
      exact List.forall_mem_append.mpr ⟨fun e he => Std.le_trans (above e he)
        (Std.le_of_not_ge below), List.forall_mem_singleton.mpr (Std.le_refl _)⟩
  · have same : a.next (.insert d) = a := by
      simp only [Archive.next, refused, same]
      rfl
    rw [same]
    exact ⟨_, h.retains.documents_eq, top, listed, above⟩

end Has

end Archive

end TraceJournal
