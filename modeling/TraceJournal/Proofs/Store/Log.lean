import TraceJournal.Proofs.Segment.Sole
import TraceJournal.Proofs.Store.Cursor

/-!
# The log of a store

All documents that were ever in a store make up its log, of which the store holds the last ones. A
cursor has passed over the first documents of the log. An insertion leaves it there or, by removing
what stands in front of it, makes it fail for good; asking it takes it over the next documents.
-/

namespace TraceJournal

namespace Store

/-- A segment store is the only one that uses its file. -/
def Sole : Store → Prop
  | memory _ => True
  | segment s disk => s.Sole disk

/-- The documents in the store. -/
def held : Store → List Document
  | memory s => s.documents
  | segment s disk => s.held disk

/-- The documents that an insertion adds, before any is removed. -/
def added (d : Document) : Store → List Document
  | memory _ => [d]
  | segment s disk => s.added d disk

namespace Sole

variable {store : Store}

theorem documents_eq (h : store.Sole) : store.documents = .ok store.held := by
  cases store with
  | memory s => rfl
  | segment s disk =>
    have sole : s.Sole disk := h
    exact sole.inPlace.documents_eq

theorem insert (h : store.Sole) (d : Document) : (store.insert d).2.Sole := by
  cases store with
  | memory s => trivial
  | segment s disk =>
    have sole : s.Sole disk := h
    rw [insert_segment]
    exact sole.insert d

/-- An insertion that fails changes nothing. -/
theorem insert_error (h : store.Sole) {d : Document} {e : StoreError}
    (failed : (store.insert d).1 = .error e) : (store.insert d).2 = store := by
  cases store with
  | memory s => cases failed
  | segment s disk =>
    have sole : s.Sole disk := h
    rw [insert_segment] at failed ⊢
    simp only at failed ⊢
    rw [sole.insert_error failed]

/-- After an insertion the last documents are left. -/
theorem held_suffix (h : store.Sole) {d : Document} (accepted : (store.insert d).1 = .ok ()) :
    (store.insert d).2.held <:+ store.held ++ store.added d := by
  cases store with
  | memory s => exact List.drop_suffix _ _
  | segment s disk =>
    have sole : s.Sole disk := h
    rw [insert_segment] at accepted ⊢
    simp only at accepted
    exact sole.held_suffix accepted

end Sole

end Store

namespace Cursor

/-- The cursor was opened through the store. -/
def OpenedOn (store : Store) : Cursor → Prop
  | memory _ =>
    match store with
    | .memory _ => True
    | .segment _ _ => False
  | segment c =>
    match store with
    | .segment s _ => c.number = s.number
    | .memory _ => False

/-- What stands at the cursor's place is gone. -/
def Lost (store : Store) : Cursor → Prop
  | memory c =>
    match store with
    | .memory s => c.next < s.first
    | .segment _ _ => False
  | segment c =>
    match store with
    | .segment _ disk => c.Lost disk
    | .memory _ => False

variable {c : Cursor} {store : Store} {seen : List Document}

theorem openedOn_tailFrom {source : Instant} (h : store.tailFrom source = .ok c) :
    c.OpenedOn store := by
  cases store with
  | memory s =>
    cases hc : s.tailFrom source with
    | error e => simp only [Store.tailFrom, hc] at h; cases h
    | ok c' =>
      simp only [Store.tailFrom, hc] at h
      cases h
      trivial
  | segment s disk =>
    cases hc : s.tailFrom source disk with
    | error e => simp only [Store.tailFrom, hc] at h; cases h
    | ok c' =>
      simp only [Store.tailFrom, hc] at h
      cases h
      unfold Segment.tailFrom at hc
      split at hc
      · cases hc
        rfl
      · cases hc

/-- Asking a cursor changes nothing of what it was opened on and from. -/
theorem openedOn_tryNext (h : c.OpenedOn store) :
    (c.tryNext store).2.OpenedOn store ∧ (c.tryNext store).2.source = c.source := by
  cases c with
  | memory c =>
    cases store with
    | segment s disk => cases h
    | memory s =>
      refine ⟨trivial, ?_⟩
      simp only [tryNext, MemoryCursor.tryNext]
      split
      · rfl
      · split <;> rfl
  | segment c =>
    cases store with
    | memory s => cases h
    | segment s disk =>
      obtain ⟨w, next, moved⟩ := c.exists_tryNext disk
      simp only [tryNext, moved]
      exact ⟨h, rfl⟩

theorem openedOn_insert (h : c.OpenedOn store) (sole : store.Sole) (d : Document) :
    c.OpenedOn (store.insert d).2 := by
  cases c with
  | memory c =>
    cases store with
    | memory s => trivial
    | segment s disk => cases h
  | segment c =>
    cases store with
    | memory s => cases h
    | segment s disk =>
      have through : c.number = s.number := h
      have alone : s.Sole disk := sole
      have same := (alone.inPlace.inserted d).number_eq
      rw [Store.insert_segment]
      exact through.trans same.symm

/-- A lost cursor fails, and stays where it is. -/
theorem Lost.tryNext_eq (h : c.Lost store) : ∃ e, c.tryNext store = (.error e, c) := by
  cases c with
  | memory c =>
    cases store with
    | segment s disk => cases h
    | memory s =>
      have behind : c.next < s.first := h
      refine ⟨.cursorInvalidated c.next, ?_⟩
      simp only [tryNext, MemoryCursor.tryNext, if_pos behind]
  | segment c =>
    cases store with
    | memory s => cases h
    | segment s disk =>
      have lost : c.Lost disk := h
      refine ⟨.cursorInvalidated c.offset, ?_⟩
      simp only [tryNext, lost.tryNext_eq]

/-- No insertion gives a cursor its place back. -/
theorem Lost.insert (h : c.Lost store) (sole : store.Sole) (d : Document) :
    c.Lost (store.insert d).2 := by
  cases c with
  | memory c =>
    cases store with
    | segment s disk => cases h
    | memory s => exact Nat.lt_of_lt_of_le h (Nat.le_add_right _ _)
  | segment c =>
    cases store with
    | memory s => cases h
    | segment s disk =>
      have lost : c.Lost disk := h
      have alone : s.Sole disk := sole
      rw [Store.insert_segment]
      exact lost.insert alone.inPlace d

/-! ## Insertions -/

private theorem follows_insert_memory {c : MemoryCursor} {s : MemoryStore}
    (follows : c.Follows s seen) (d : Document) :
    c.next < (s.insert d).first ∨ ∃ gone seen',
      s.documents ++ [d] = gone ++ (s.insert d).documents ∧ seen = gone ++ seen' ∧
        c.Follows (s.insert d) seen' := by
  have first_le := follows.first_le
  have next_le := follows.next_le
  generalize excess : s.excess (s.documents ++ [d]).length = n
  have first : (s.insert d).first = s.first + n := by rw [← excess]; rfl
  have documents : (s.insert d).documents = (s.documents ++ [d]).drop n := by rw [← excess]; rfl
  by_cases gone : c.next < s.first + n
  · left
    rw [first]
    exact gone
  · right
    refine ⟨(s.documents ++ [d]).take n, (s.documents.drop n).take (c.next - s.first - n), ?_, ?_,
      ?_, ?_, ?_⟩
    · rw [documents, List.take_append_drop]
    · have front : s.documents.take n = (s.documents.take (c.next - s.first)).take n := by
        rw [List.take_take, Nat.min_eq_left (by omega)]
      rw [follows.seen_eq, List.take_append_of_le_length (by omega), ← List.drop_take, front,
        List.take_append_drop]
    · rw [first]
      omega
    · rw [first, documents, List.length_drop, List.length_append, List.length_singleton]
      omega
    · rw [first, documents, List.drop_append_of_le_length (by omega),
        List.take_append_of_le_length (by rw [List.length_drop]; omega), Nat.sub_sub]

/-- An insertion leaves a cursor behind the documents that it has passed over, of which the oldest
may be gone, unless the cursor is lost. -/
theorem Follows.insert_or_lost (h : c.Follows store seen) (opened : c.OpenedOn store)
    (sole : store.Sole) {d : Document} (accepted : (store.insert d).1 = .ok ()) :
    c.Lost (store.insert d).2 ∨ ∃ gone seen',
      store.held ++ store.added d = gone ++ (store.insert d).2.held ∧ seen = gone ++ seen' ∧
        c.Follows (store.insert d).2 seen' := by
  cases c with
  | memory c =>
    cases store with
    | segment s disk => cases h
    | memory s => exact follows_insert_memory h d
  | segment c =>
    cases store with
    | memory s => cases h
    | segment s disk =>
      have follows : c.Follows s disk seen := h
      have alone : s.Sole disk := sole
      have through : c.number = s.number := opened
      have same := Store.insert_segment d s disk
      rw [same] at accepted ⊢
      simp only at accepted
      by_cases overflows : s.Overflows d
      · have counted := (alone.inPlace.inserted d).cutsOf_eq accepted overflows alone.known
        have lost : c.Lost (s.insert d disk).2.2 := by
          unfold SegmentCursor.Lost
          rw [through, counted, ← follows.uncut, through]
          exact Nat.lt_succ_self _
        exact .inl lost
      · have left := alone.held_of_room accepted overflows
        have after := follows.insert (.inr (Nat.le_of_not_lt overflows))
        right
        refine ⟨[], seen, ?_, rfl, after⟩
        rw [List.nil_append]
        simp only [Store.held, Store.added, left]

/-! ## Places in the log -/

/-- The cursor was opened through the store, of which the log is given, and has passed over some
first documents of that: it follows behind them, unless it is lost. -/
structure At (store : Store) (log passed : List Document) (c : Cursor) : Prop where
  opened : c.OpenedOn store
  passed_prefix : passed <+: log
  place : c.Lost store ∨
    ∃ gone seen, gone ++ store.held = log ∧ gone ++ seen = passed ∧ c.Follows store seen

namespace At

variable {log passed : List Document}

/-- A cursor that follows the store has passed over what is gone, and over what it has seen. -/
theorem of_follows {gone : List Document} (sole : store.Sole) (opened : c.OpenedOn store)
    (all : gone ++ store.held = log) (follows : c.Follows store seen) :
    c.At store log (gone ++ seen) := by
  obtain ⟨ahead, documents⟩ := follows.documents
  have held := Except.ok.inj (sole.documents_eq.symm.trans documents)
  refine ⟨opened, ?_, .inr ⟨gone, seen, all, rfl, follows⟩⟩
  rw [← all, held, ← List.append_assoc]
  exact List.prefix_append _ _

/-- A cursor that was just opened has a place in the log. -/
theorem of_tailFrom {source : Instant} {gone : List Document} (sole : store.Sole)
    (h : store.tailFrom source = .ok c) (all : gone ++ store.held = log) :
    c.source = source ∧ ∃ passed, c.At store log passed := by
  obtain ⟨skipped, follows, from_source, -⟩ := follows_tailFrom h
  exact ⟨from_source, _, of_follows sole (openedOn_tailFrom h) all follows⟩

/-- A document that is inserted comes to the end of the log. -/
theorem insert (h : c.At store log passed) (sole : store.Sole) {d : Document}
    (accepted : (store.insert d).1 = .ok ()) :
    c.At (store.insert d).2 (log ++ store.added d) passed := by
  refine ⟨openedOn_insert h.opened sole d, h.passed_prefix.trans (List.prefix_append _ _), ?_⟩
  rcases h.place with lost | ⟨gone, seen, all, front, follows⟩
  · exact .inl (lost.insert sole d)
  · rcases follows.insert_or_lost h.opened sole accepted with
      lost | ⟨more, seen', all', rfl, after⟩
    · exact .inl lost
    · refine .inr ⟨gone ++ more, seen', ?_, ?_, after⟩
      · rw [List.append_assoc, ← all', ← List.append_assoc, all]
      · rw [List.append_assoc, front]

/-- What asking a cursor at its place in the log comes to: it fails only if it is lost, and finds
nothing only at the end of the log. -/
inductive Asked (store : Store) (log passed : List Document) (c : Cursor) :
    Except StoreError (Option Document) × Cursor → Prop where
  | lost {e : StoreError} : c.Lost store → Asked store log passed c (.error e, c)
  | nothing {skipped : List Document} {c' : Cursor} :
    c'.source = c.source → c'.At store log (passed ++ skipped) →
      (∀ d ∈ skipped, ¬c.source ≤ d.time) → passed ++ skipped = log →
      Asked store log passed c (.ok none, c')
  | found {skipped : List Document} {d : Document} {c' : Cursor} :
    c'.source = c.source → c'.At store log (passed ++ skipped ++ [d]) →
      (∀ d ∈ skipped, ¬c.source ≤ d.time) → c.source ≤ d.time →
      Asked store log passed c (.ok (some d), c')

theorem asked (h : c.At store log passed) (sole : store.Sole) :
    Asked store log passed c (c.tryNext store) := by
  rcases h.place with lost | ⟨gone, seen, all, rfl, follows⟩
  · obtain ⟨e, fails⟩ := lost.tryNext_eq
    rw [fails]
    exact .lost lost
  · have opened := (openedOn_tryNext h.opened).1
    have asked := follows.asked
    generalize c.tryNext store = answer at asked opened ⊢
    cases asked with
    | nothing source after before ends =>
      have held := Except.ok.inj (sole.documents_eq.symm.trans ends)
      refine .nothing source ?_ before ?_
      · rw [List.append_assoc]
        exact of_follows sole opened all after
      · rw [List.append_assoc, ← held, all]
    | found source after before matching =>
      refine .found source ?_ before matching
      rw [List.append_assoc, List.append_assoc, ← List.append_assoc seen]
      exact of_follows sole opened all after

/-- Asking a cursor takes it over documents before its time and, if it answers one, over that. -/
theorem tryNext (h : c.At store log passed) (sole : store.Sole) :
    ∃ more, (c.tryNext store).2.At store log (passed ++ more) ∧
      ∀ d, (c.tryNext store).1 = .ok (some d) →
        c.source ≤ d.time ∧ ∃ skipped, more = skipped ++ [d] ∧
          ∀ e ∈ skipped, ¬c.source ≤ e.time := by
  have asked := h.asked sole
  generalize c.tryNext store = answer at asked ⊢
  cases asked with
  | lost =>
    refine ⟨[], ?_, fun d found => by cases found⟩
    rw [List.append_nil]
    exact h
  | nothing _ after => exact ⟨_, after, fun d found => by cases found⟩
  | found _ after before matching =>
    rw [List.append_assoc] at after
    refine ⟨_, after, ?_⟩
    intro other same
    cases same
    exact ⟨matching, _, rfl, before⟩

end At

end Cursor

end TraceJournal
