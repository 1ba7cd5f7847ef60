import TraceJournal.Proofs.Store.Cursor

/-!
# Stores in memory as sliding windows

The documents of a store in memory are the last ones of its history, which is the list of all that
were ever inserted. Insertions and clearings only move the start of this window. A cursor stands at
a place in the history; it answers the documents from its place on that are not before its time, and
fails for good once the window has passed its place.
-/

namespace TraceJournal

namespace MemoryStore

variable {s : MemoryStore} {history : List Document}

/-- The store holds what its history has from the number of its first document on, and no more than
it may keep. -/
structure Slides (s : MemoryStore) (history : List Document) : Prop where
  first_le : s.first ≤ history.length
  documents_eq : s.documents = history.drop s.first
  length_le : ∀ n, s.capacity = some n → s.documents.length ≤ n

namespace Slides

theorem length_eq (h : s.Slides history) : s.first + s.documents.length = history.length := by
  have le := h.first_le
  rw [h.documents_eq, List.length_drop]
  omega

/-- Inserting a document moves the window by the documents that are too many. -/
theorem insert (h : s.Slides history) (d : Document) : (s.insert d).Slides (history ++ [d]) := by
  have length := h.length_eq
  have excess : s.excess (s.documents ++ [d]).length ≤ (s.documents ++ [d]).length := by
    unfold excess
    split <;> omega
  rw [List.length_append, List.length_singleton] at excess
  constructor
  · simp only [MemoryStore.insert, List.length_append, List.length_singleton]
    omega
  · simp only [MemoryStore.insert, List.length_append, List.length_singleton]
    rw [h.documents_eq, ← List.drop_append_of_le_length h.first_le, List.drop_drop]
  · intro n limited
    have limit : s.capacity = some n := limited
    simp only [MemoryStore.insert, MemoryStore.excess, limit, List.length_drop]
    omega

theorem clear (h : s.Slides history) : s.clear.Slides history where
  first_le := Nat.le_of_eq h.length_eq
  documents_eq := by
    simp only [MemoryStore.clear, h.length_eq, List.drop_length]
  length_le _ _ := Nat.zero_le _

end Slides

/-- There is room for one document. -/
theorem excess_succ_le (s : MemoryStore) (n : Nat) : s.excess (n + 1) ≤ n := by
  have room := s.capacity_pos
  unfold excess
  cases limit : s.capacity with
  | none => exact Nat.zero_le n
  | some most =>
    have positive := room most limit
    simp only
    omega

/-- A document that is inserted comes to stand at the end, whatever it pushes out. -/
theorem getLast?_insert (s : MemoryStore) (d : Document) :
    (s.insert d).documents.getLast? = some d := by
  have excess := s.excess_succ_le s.documents.length
  simp only [insert, List.getLast?_drop, List.length_append, List.length_singleton,
    List.getLast?_concat]
  rw [if_neg (by omega)]

theorem existsFrom_insert {d : Document} {source : Instant} (matching : source ≤ d.time) :
    (s.insert d).existsFrom source = true :=
  List.any_eq_true.mpr
    ⟨d, List.mem_of_getLast? (s.getLast?_insert d), decide_eq_true matching⟩

/-- A cursor can be opened exactly if a document matches. -/
theorem exists_tailFrom_iff (s : MemoryStore) (source : Instant) :
    (∃ c, s.tailFrom source = .ok c) ↔ s.existsFrom source = true := by
  unfold tailFrom existsFrom
  cases found : s.documents.findIdx? fun d => source ≤ d.time with
  | none =>
    have before := List.findIdx?_eq_none_iff.mp found
    simpa using before
  | some index =>
    obtain ⟨within, matching, -⟩ := List.findIdx?_eq_some_iff_getElem.mp found
    simp only [Except.ok.injEq, exists_eq', List.any_eq_true, true_iff]
    exact ⟨_, List.getElem_mem within, matching⟩

/-- A cursor is opened at the first document that matches. -/
theorem tailFrom_eq_ok {source : Instant} {c : MemoryCursor} (h : s.tailFrom source = .ok c) :
    c = ⟨s.first + s.documents.findIdx fun d => source ≤ d.time, source⟩ ∧
      (s.documents.findIdx fun d => source ≤ d.time) < s.documents.length := by
  unfold tailFrom at h
  split at h
  · next index found =>
    obtain ⟨within, rfl⟩ := List.findIdx?_eq_some_iff_findIdx_eq.mp found
    cases h
    exact ⟨rfl, within⟩
  · cases h

end MemoryStore

namespace MemoryCursor

variable {c : MemoryCursor} {s : MemoryStore} {history : List Document}

theorem tryNext_of_lt (behind : c.next < s.first) :
    c.tryNext s = (.error (.cursorInvalidated c.next), c) := by
  rw [tryNext, if_pos behind]

/-- A cursor whose place the window has not passed answers the first of the documents from there on
that is not before its time, and moves behind it, or to the end if there is none. -/
theorem exists_tryNext_eq (h : s.Slides history) (present : s.first ≤ c.next)
    (within : c.next ≤ history.length) :
    ∃ n, c.tryNext s =
        (.ok ((history.drop c.next).find? fun d => c.source ≤ d.time),
          { c with next := c.next + n }) ∧
      c.next + n ≤ history.length ∧
      (((history.drop c.next).take n).filter fun d => c.source ≤ d.time) =
        ((history.drop c.next).find? fun d => c.source ≤ d.time).toList := by
  have ahead : s.documents.drop (c.next - s.first) = history.drop c.next := by
    rw [h.documents_eq, List.drop_drop, Nat.add_sub_cancel' present]
  have length : (history.drop c.next).length = history.length - c.next := List.length_drop
  simp only [tryNext, if_neg (Nat.not_lt_of_le present), ahead]
  cases found : (history.drop c.next).findIdx? fun d => c.source ≤ d.time with
  | none =>
    have before : ∀ d ∈ history.drop c.next, ¬c.source ≤ d.time := by
      simpa using List.findIdx?_eq_none_iff.mp found
    have nothing : ((history.drop c.next).find? fun d => c.source ≤ d.time) = none := by
      simpa using before
    rw [nothing]
    refine ⟨(history.drop c.next).length, rfl, by omega, ?_⟩
    rw [List.take_length, Document.filter_eq_nil_of_before before]
    rfl
  | some index =>
    obtain ⟨inside, matching, before⟩ := List.findIdx?_eq_some_iff_getElem.mp found
    have first : ((history.drop c.next).find? fun d => c.source ≤ d.time) =
        some (history.drop c.next)[index] :=
      List.find?_eq_some_iff_getElem.mpr
        ⟨matching, index, inside, rfl, fun j earlier => by simpa using before j earlier⟩
    simp only [first, List.getElem?_eq_getElem inside]
    refine ⟨index + 1, rfl, by omega, ?_⟩
    have skipped : ∀ d ∈ (history.drop c.next).take index, ¬c.source ≤ d.time := by
      intro d member
      obtain ⟨j, earlier, rfl⟩ := List.mem_take_iff_getElem.mp member
      simpa using before j (by omega)
    have one : ([(history.drop c.next)[index]].filter fun d => c.source ≤ d.time) =
        [(history.drop c.next)[index]] := by
      simp only [List.filter_cons, matching, if_true, List.filter_nil]
    rw [List.take_add_one, List.getElem?_eq_getElem inside, Option.toList_some, List.filter_append,
      Document.filter_eq_nil_of_before skipped, one]
    rfl

end MemoryCursor

/-! ## Cursors of a store in memory -/

/-- A cursor of a store in memory, with all that it has answered. -/
structure MemoryReading where
  cursor : MemoryCursor
  /-- The time from which on it was opened. -/
  source : Instant
  /-- The number of the first document in the store that matched when it was opened. -/
  start : Nat
  /-- All documents that it has answered. -/
  found : List Document
  /-- The error with which it failed first. -/
  failure : Option StoreError

namespace MemoryReading

/-- The cursor after it was asked. -/
def ask (s : MemoryStore) (r : MemoryReading) : MemoryReading :=
  match r.cursor.tryNext s with
  | (.ok (some d), cursor) => { r with cursor, found := r.found ++ [d] }
  | (.ok none, cursor) => { r with cursor }
  | (.error e, cursor) => { r with cursor, failure := r.failure.or (some e) }

/-- What a cursor has done and does on a store whose history is given, and from which the first
`removed` documents are gone: it has answered the documents from its time on between its start and
its place, and answers the next one that there is; it fails exactly if the document at its place is
gone, and once it has failed it goes on to fail in the same way. -/
structure Exact (r : MemoryReading) (s : MemoryStore) (history : List Document) (removed : Nat) :
    Prop where
  start_le : r.start ≤ r.cursor.next
  next_le : r.cursor.next ≤ history.length
  found_eq : r.found =
    ((history.take r.cursor.next).drop r.start).filter fun d => r.source ≤ d.time
  fails_iff : ∀ e, (r.cursor.tryNext s).1 = .error e ↔
    r.cursor.next < removed ∧ e = .cursorInvalidated r.cursor.next
  still_fails : ∀ e, r.failure = some e → r.cursor.tryNext s = (.error e, r.cursor)
  next_eq : removed ≤ r.cursor.next → (r.cursor.tryNext s).1 =
    .ok ((history.drop r.cursor.next).find? fun d => r.source ≤ d.time)
  nothing_iff : removed ≤ r.cursor.next → ((r.cursor.tryNext s).1 = .ok none ↔
    ∀ d ∈ history.drop r.cursor.next, ¬r.source ≤ d.time)

/-- What holds of a cursor at any time. -/
structure Stands (r : MemoryReading) (s : MemoryStore) (history : List Document) : Prop where
  source_eq : r.cursor.source = r.source
  start_le : r.start ≤ r.cursor.next
  next_le : r.cursor.next ≤ history.length
  found_eq : r.found =
    ((history.take r.cursor.next).drop r.start).filter fun d => r.source ≤ d.time
  failed : ∀ e, r.failure = some e →
    r.cursor.next < s.first ∧ e = .cursorInvalidated r.cursor.next

/-- A cursor that does not fail has answered what it answers, if that is a document. -/
theorem ask_of_ok {r : MemoryReading} {s : MemoryStore} {answer : Option Document}
    {c : MemoryCursor} (asked : r.cursor.tryNext s = (.ok answer, c)) :
    r.ask s = { r with cursor := c, found := r.found ++ answer.toList } := by
  cases answer with
  | none => simp only [ask, asked, Option.toList_none, List.append_nil]
  | some d => simp only [ask, asked, Option.toList_some]

namespace Stands

variable {r : MemoryReading} {s s' : MemoryStore} {history : List Document}

/-- The window moves on, and the history goes on. -/
theorem slide (h : r.Stands s history) (moved : s.first ≤ s'.first) (more : List Document) :
    r.Stands s' (history ++ more) where
  source_eq := h.source_eq
  start_le := h.start_le
  next_le := by
    rw [List.length_append]
    exact Nat.le_add_right_of_le h.next_le
  found_eq := by
    rw [List.take_append_of_le_length h.next_le]
    exact h.found_eq
  failed e failed := by
    obtain ⟨behind, same⟩ := h.failed e failed
    exact ⟨Nat.lt_of_lt_of_le behind moved, same⟩

theorem ask (h : r.Stands s history) (slides : s.Slides history) :
    (r.ask s).Stands s history := by
  by_cases behind : r.cursor.next < s.first
  · simp only [MemoryReading.ask, MemoryCursor.tryNext_of_lt behind]
    refine ⟨h.source_eq, h.start_le, h.next_le, h.found_eq, ?_⟩
    intro e failed
    rcases Option.or_eq_some_iff.mp failed with earlier | ⟨-, now⟩
    · exact h.failed e earlier
    · exact ⟨behind, (Option.some.inj now).symm⟩
  · obtain ⟨n, answer, within, passed⟩ :=
      MemoryCursor.exists_tryNext_eq slides (Nat.le_of_not_lt behind) h.next_le
    have start_le : r.start ≤ r.cursor.next + n := Nat.le_add_right_of_le h.start_le
    have unfailed : ∀ e, r.failure ≠ some e := fun e failed => behind (h.failed e failed).1
    have between : (history.take (r.cursor.next + n)).drop r.start =
        (history.take r.cursor.next).drop r.start ++ (history.drop r.cursor.next).take n := by
      have length : (history.take r.cursor.next).length = r.cursor.next := by
        rw [List.length_take, Nat.min_eq_left h.next_le]
      rw [List.take_add, List.drop_append_of_le_length (by rw [length]; exact h.start_le)]
    have found : ((history.take (r.cursor.next + n)).drop r.start).filter
          (fun d => r.source ≤ d.time) =
        r.found ++
          ((history.drop r.cursor.next).find? fun d => r.source ≤ d.time).toList := by
      rw [between, List.filter_append, ← h.found_eq, ← h.source_eq, passed]
    rw [h.source_eq] at answer
    rw [ask_of_ok answer]
    exact ⟨rfl, start_le, within, found.symm, fun e failed => absurd failed (unfailed e)⟩

theorem exact (h : r.Stands s history) (slides : s.Slides history) :
    r.Exact s history s.first := by
  have next_eq (present : s.first ≤ r.cursor.next) : (r.cursor.tryNext s).1 =
      .ok ((history.drop r.cursor.next).find? fun d => r.source ≤ d.time) := by
    obtain ⟨n, answer, -⟩ := MemoryCursor.exists_tryNext_eq slides present h.next_le
    rw [answer, h.source_eq]
  refine ⟨h.start_le, h.next_le, h.found_eq, ?_, ?_, next_eq, ?_⟩
  · intro e
    by_cases behind : r.cursor.next < s.first
    · rw [MemoryCursor.tryNext_of_lt behind]
      simp only [behind, true_and, Except.error.injEq, eq_comm]
    · rw [next_eq (Nat.le_of_not_lt behind)]
      simp only [reduceCtorEq, behind, false_and]
  · intro e failed
    obtain ⟨behind, same⟩ := h.failed e failed
    rw [MemoryCursor.tryNext_of_lt behind, same]
  · intro present
    rw [next_eq present]
    simp only [Except.ok.injEq, List.find?_eq_none, decide_eq_true_eq]

end Stands

end MemoryReading

/-- A store in memory with its history, and all cursors that were opened on it. What is counted here
is told by what happens to the store, and not by the store. -/
structure MemoryReadership where
  store : MemoryStore
  /-- How many documents the store was told to keep; none for any number. -/
  limit : Option Nat
  /-- All documents that were ever inserted. -/
  history : List Document
  /-- How many documents were evicted or cleared. -/
  removed : Nat
  readings : List MemoryReading

namespace MemoryReadership

/-- What happens to a store in memory and its cursors. -/
inductive Action where
  /-- A document is inserted. -/
  | insert (d : Document)
  /-- All documents are removed. -/
  | clear
  /-- A cursor is opened. -/
  | tail (source : Instant)
  /-- The cursor with this number is asked. -/
  | ask (number : Nat)

/-- How many of some documents are too many for a store that was told to keep so many, and keeps at
least one. -/
def surplus (limit : Option Nat) (length : Nat) : Nat :=
  match limit with
  | none => 0
  | some most => length - max most 1

/-- An empty store that keeps at least one document, and at most as many as it may. -/
def start (limit : Option Nat) : MemoryReadership :=
  ⟨limit.elim .unbounded .bounded, limit, [], 0, []⟩

/-- The store and its cursors after an action. -/
def next (w : MemoryReadership) : Action → MemoryReadership
  | .insert d =>
    { w with
      store := w.store.insert d
      history := w.history ++ [d]
      removed := w.removed + surplus w.limit (w.history.length + 1 - w.removed) }
  | .clear => { w with store := w.store.clear, removed := w.history.length }
  | .tail source =>
    match w.store.tailFrom source with
    | .ok cursor =>
      let start := w.removed + (w.history.drop w.removed).findIdx fun d => source ≤ d.time
      { w with readings := w.readings ++ [⟨cursor, source, start, [], none⟩] }
    | .error _ => w
  | .ask number => { w with readings := w.readings.modify number (MemoryReading.ask w.store) }

/-- The store and its cursors after some actions. -/
def run (w : MemoryReadership) (actions : List Action) : MemoryReadership :=
  actions.foldl next w

/-- A store is longer than it may be by what is too many for what it was told to keep. -/
theorem excess_eq {s : MemoryStore} {limit : Option Nat}
    (told : s.capacity = limit.map (max · 1)) (length : Nat) :
    s.excess length = surplus limit length := by
  unfold MemoryStore.excess
  rw [told]
  cases limit <;> rfl

/-- What holds at any time. -/
structure Inv (w : MemoryReadership) : Prop where
  slides : w.store.Slides w.history
  capacity_eq : w.store.capacity = w.limit.map (max · 1)
  removed_eq : w.removed = w.store.first
  stands : ∀ r ∈ w.readings, r.Stands w.store w.history

namespace Inv

variable {w : MemoryReadership}

theorem start (limit : Option Nat) : (MemoryReadership.start limit).Inv where
  slides := by
    cases limit with
    | none => exact ⟨Nat.le_refl 0, rfl, nofun⟩
    | some m => exact ⟨Nat.le_refl 0, rfl, fun _ _ => Nat.zero_le _⟩
  capacity_eq := by cases limit <;> rfl
  removed_eq := by cases limit <;> rfl
  stands := by
    intro r hr
    cases hr

/-- What is left of the history are the documents of the store. -/
theorem left_eq (h : w.Inv) : w.history.drop w.removed = w.store.documents := by
  rw [h.removed_eq, h.slides.documents_eq]

theorem insert (h : w.Inv) (d : Document) : (w.next (.insert d)).Inv where
  slides := h.slides.insert d
  capacity_eq := h.capacity_eq
  removed_eq := by
    have length : w.history.length + 1 - w.removed = (w.store.documents ++ [d]).length := by
      have whole := h.slides.length_eq
      rw [h.removed_eq, List.length_append, List.length_singleton]
      omega
    simp only [next, MemoryStore.insert]
    rw [length, excess_eq h.capacity_eq, h.removed_eq]
  stands r hr := (h.stands r hr).slide (Nat.le_add_right _ _) [d]

theorem clear (h : w.Inv) : (w.next .clear).Inv where
  slides := h.slides.clear
  capacity_eq := h.capacity_eq
  removed_eq := h.slides.length_eq.symm
  stands r hr := by
    have moved : w.store.first ≤ w.store.clear.first := Nat.le_add_right _ _
    have stands := (h.stands r hr).slide moved []
    rwa [List.append_nil] at stands

theorem tail (h : w.Inv) (source : Instant) : (w.next (.tail source)).Inv := by
  simp only [next]
  split
  · next cursor opened =>
    obtain ⟨rfl, within⟩ := MemoryStore.tailFrom_eq_ok opened
    refine ⟨h.slides, h.capacity_eq, h.removed_eq, ?_⟩
    intro r hr
    rcases List.mem_append.mp hr with old | new
    · exact h.stands r old
    · rw [List.mem_singleton.mp new, h.left_eq, h.removed_eq]
      have length := h.slides.length_eq
      have none : (w.history.take (w.store.first +
          w.store.documents.findIdx fun d => source ≤ d.time)).drop (w.store.first +
            w.store.documents.findIdx fun d => source ≤ d.time) = [] :=
        List.drop_eq_nil_of_le (List.length_take_le _ _)
      refine ⟨rfl, Nat.le_refl _, ?_, ?_, ?_⟩
      · simp only
        omega
      · simp only [none, List.filter_nil]
      · intro e failed
        cases failed
  · exact h

theorem ask (h : w.Inv) (number : Nat) : (w.next (.ask number)).Inv :=
  ⟨h.slides, h.capacity_eq, h.removed_eq,
    forall_mem_modify h.stands (fun _ stands => stands.ask h.slides) number⟩

theorem next (h : w.Inv) (action : Action) : (w.next action).Inv := by
  cases action with
  | insert d => exact h.insert d
  | clear => exact h.clear
  | tail source => exact h.tail source
  | ask number => exact h.ask number

theorem run (h : w.Inv) (actions : List Action) : (w.run actions).Inv := by
  induction actions generalizing w with
  | nil => exact h
  | cons action rest ih => exact ih (h.next action)

end Inv

theorem limit_next (w : MemoryReadership) (action : Action) : (w.next action).limit = w.limit := by
  cases action with
  | tail source =>
    simp only [next]
    split <;> rfl
  | _ => rfl

theorem limit_run (w : MemoryReadership) (actions : List Action) :
    (w.run actions).limit = w.limit := by
  induction actions generalizing w with
  | nil => rfl
  | cons action rest ih => exact (ih (w.next action)).trans (w.limit_next action)

end MemoryReadership

/-- After any insertions, clearings, openings of cursors and questions to them, on a store that
keeps any number of documents: the store holds its history but for the documents that were evicted
or cleared, which are the first ones; an insertion evicts the oldest documents, as many as are too
many, so that the store holds no more than it may; a cursor can be opened exactly if a document
matches; and every cursor has answered, and answers, exactly what it should. -/
theorem MemoryStore.cursors_exact_while_sliding (limit : Option Nat)
    (actions : List MemoryReadership.Action) :
    let w := (MemoryReadership.start limit).run actions
    w.removed ≤ w.history.length ∧ w.store.documents = w.history.drop w.removed ∧
      (∀ d, (w.store.insert d).documents = (w.store.documents ++ [d]).drop
        (MemoryReadership.surplus limit (w.store.documents.length + 1))) ∧
      (∀ m, limit = some m → w.store.documents.length ≤ max m 1) ∧
      (∀ source, (∃ c, w.store.tailFrom source = .ok c) ↔ w.store.existsFrom source = true) ∧
      ∀ r ∈ w.readings, r.Exact w.store w.history w.removed := by
  intro w
  have inv : w.Inv := (MemoryReadership.Inv.start limit).run actions
  have told : w.store.capacity = limit.map (max · 1) := by
    rw [inv.capacity_eq, MemoryReadership.limit_run]
    rfl
  refine ⟨?_, inv.left_eq.symm, ?_, ?_, w.store.exists_tailFrom_iff, ?_⟩
  · rw [inv.removed_eq]
    exact inv.slides.first_le
  · intro d
    simp only [MemoryStore.insert, MemoryReadership.excess_eq told, List.length_append,
      List.length_singleton]
  · rintro m rfl
    exact inv.slides.length_le _ told
  · intro r hr
    rw [inv.removed_eq]
    exact (inv.stands r hr).exact inv.slides

end TraceJournal
