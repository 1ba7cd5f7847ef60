import TraceJournal.Proofs.Store.Sliding

/-!
# Cursors of a store that is cleared

Clearing a store in memory moves the start of its window to the end of its history. That passes a
cursor which has a document of the history in front of it: such a cursor fails from then on, whatever
is inserted later. A cursor that has passed over the whole history stands just where the window now
starts. It is not told that anything was cleared, and goes on with the documents to come.
-/

namespace TraceJournal

/-! ## One cursor under any actions -/

/-- A cursor never moves back. -/
theorem MemoryCursor.next_le_tryNext (c : MemoryCursor) (s : MemoryStore) :
    c.next ≤ (c.tryNext s).2.next := by
  unfold tryNext
  split
  · exact Nat.le_refl _
  · simp only
    split <;> simp only <;> omega

namespace MemoryReading

variable {r r' : MemoryReading} {s s' : MemoryStore}

/-- The same cursor, as it is at some time later. -/
structure Later (r r' : MemoryReading) : Prop where
  source_eq : r'.source = r.source
  start_eq : r'.start = r.start
  next_le : r.cursor.next ≤ r'.cursor.next

theorem Later.refl (r : MemoryReading) : r.Later r := ⟨rfl, rfl, Nat.le_refl _⟩

theorem Later.ask (h : r.Later r') (s : MemoryStore) : r.Later (r'.ask s) := by
  have le := Nat.le_trans h.next_le (r'.cursor.next_le_tryNext s)
  unfold MemoryReading.ask
  split
  all_goals
    next asked =>
      rw [asked] at le
      exact ⟨h.source_eq, h.start_eq, le⟩

/-- A cursor whose place the window has passed, as it is later: nothing has changed about it. -/
structure Lost (r : MemoryReading) (s : MemoryStore) (r' : MemoryReading) : Prop where
  cursor_eq : r'.cursor = r.cursor
  found_eq : r'.found = r.found
  behind : r.cursor.next < s.first

theorem Lost.slide (h : r.Lost s r') (moved : s.first ≤ s'.first) : r.Lost s' r' :=
  ⟨h.cursor_eq, h.found_eq, Nat.lt_of_lt_of_le h.behind moved⟩

theorem Lost.tryNext_eq (h : r.Lost s r') :
    r'.cursor.tryNext s = (.error (.cursorInvalidated r.cursor.next), r.cursor) := by
  rw [h.cursor_eq]
  exact MemoryCursor.tryNext_of_lt h.behind

theorem Lost.ask (h : r.Lost s r') : r.Lost s (r'.ask s) := by
  simp only [MemoryReading.ask, h.tryNext_eq]
  exact ⟨rfl, h.found_eq, h.behind⟩

end MemoryReading

namespace MemoryReadership

variable {w : MemoryReadership} {r : MemoryReading} {n : Nat}

/-- The document that an action inserts. -/
def Action.inserted? : Action → Option Document
  | .insert d => some d
  | .clear => none
  | .tail _ => none
  | .ask _ => none

/-- The documents that some actions insert, in order. -/
def insertedBy (actions : List Action) : List Document := actions.filterMap Action.inserted?

theorem history_next (w : MemoryReadership) (action : Action) :
    (w.next action).history = w.history ++ action.inserted?.toList := by
  cases action with
  | insert d => rfl
  | tail source =>
    simp only [next, Action.inserted?, Option.toList_none, List.append_nil]
    split <;> rfl
  | _ => simp [next, Action.inserted?]

theorem history_run (w : MemoryReadership) (actions : List Action) :
    (w.run actions).history = w.history ++ insertedBy actions := by
  induction actions generalizing w with
  | nil => simp [run, insertedBy]
  | cons action rest ih =>
    have later := ih (w.next action)
    rw [history_next] at later
    rw [run, List.foldl_cons, ← run, later, insertedBy, insertedBy]
    cases inserted : action.inserted? <;> simp [inserted]

/-- The window of a store only moves on. -/
theorem first_le_next (w : MemoryReadership) (action : Action) :
    w.store.first ≤ (w.next action).store.first := by
  cases action with
  | insert d => exact Nat.le_add_right _ _
  | clear => exact Nat.le_add_right _ _
  | tail source =>
    simp only [next]
    split <;> exact Nat.le_refl _
  | ask number => exact Nat.le_refl _

/-- An action leaves every cursor its number, and asks it or not. -/
theorem exists_reading_next (opened : w.readings[n]? = some r) (action : Action) :
    ∃ r', (w.next action).readings[n]? = some r' ∧ (r' = r ∨ r' = r.ask w.store) := by
  cases action with
  | insert d => exact ⟨r, opened, .inl rfl⟩
  | clear => exact ⟨r, opened, .inl rfl⟩
  | tail source =>
    refine ⟨r, ?_, .inl rfl⟩
    have within := (List.getElem?_eq_some_iff.mp opened).1
    simp only [next]
    split
    · rw [List.getElem?_append_left within, opened]
    · exact opened
  | ask number =>
    by_cases same : number = n
    · exact ⟨r.ask w.store, by simp [next, same, opened], .inr rfl⟩
    · exact ⟨r, by simp [next, same, opened], .inl rfl⟩

/-- What holds of a cursor, and goes on to do so when the window moves and when the cursor is asked,
holds after any actions. -/
theorem exists_reading_run {P : MemoryStore → MemoryReading → Prop}
    (slide : ∀ s s' r, s.first ≤ s'.first → P s r → P s' r)
    (ask : ∀ s r, P s r → P s (r.ask s)) (opened : w.readings[n]? = some r) (h : P w.store r)
    (actions : List Action) :
    ∃ r', (w.run actions).readings[n]? = some r' ∧ P (w.run actions).store r' := by
  induction actions generalizing w r with
  | nil => exact ⟨r, opened, h⟩
  | cons action rest ih =>
    obtain ⟨r', there, same | asked⟩ := exists_reading_next opened action
    · subst same
      exact ih there (slide _ _ _ (w.first_le_next action) h)
    · subst asked
      exact ih there (slide _ _ _ (w.first_le_next action) (ask _ _ h))

end MemoryReadership

/-! ## Clearing -/

namespace MemoryReading

/-- A cursor `r` that had passed over a whole history when its store was cleared, as it is later,
when `more` was inserted: it is `r'` now, and has passed over the first `k` of these documents. -/
structure Spared (r : MemoryReading) (history more : List Document) (w : MemoryReadership)
    (r' : MemoryReading) (k : Nat) : Prop where
  le_length : k ≤ more.length
  next_eq : r'.cursor.next = history.length + k
  found_eq : r'.found = r.found ++ (more.take k).filter fun d => r.source ≤ d.time
  /-- It fails exactly if the document at its place is gone again. -/
  fails_iff : ∀ e, (r'.cursor.tryNext w.store).1 = .error e ↔
    history.length + k < w.removed ∧ e = .cursorInvalidated (history.length + k)
  answers : w.removed ≤ history.length + k →
    (r'.cursor.tryNext w.store).1 = .ok ((more.drop k).find? fun d => r.source ≤ d.time)

/-- What has become of a cursor `r` of a store with a given history that was cleared, when `more`
was inserted since and whatever else has happened: it is `r'` now. -/
structure Cleared (r : MemoryReading) (history more : List Document) (w : MemoryReadership)
    (r' : MemoryReading) : Prop where
  /-- If it had not passed over the whole history, it has answered nothing since, and fails. -/
  lost : r.cursor.next < history.length →
    r'.found = r.found ∧
      r'.cursor.tryNext w.store = (.error (.cursorInvalidated r.cursor.next), r'.cursor)
  /-- If it had, it goes on with the documents inserted since. -/
  spared : r.cursor.next = history.length → ∃ k, r.Spared history more w r' k

end MemoryReading

namespace MemoryReadership

variable {w : MemoryReadership} {r : MemoryReading} {n : Nat}

/-- Once the store is cleared, the window starts at the end of the history. -/
theorem Inv.first_clear (h : w.Inv) : (w.next .clear).store.first = w.history.length :=
  h.slides.length_eq

/-- A cursor that has passed over the whole history goes on like one that was opened at its end. -/
theorem Inv.spared (h : w.Inv) {w' : MemoryReadership} (h' : w'.Inv) {more : List Document}
    (grown : w'.history = w.history ++ more) {r' : MemoryReading} (opened : r ∈ w.readings)
    (there : r' ∈ w'.readings) (later : r.Later r') (ended : r.cursor.next = w.history.length) :
    ∃ k, r.Spared w.history more w' r' k := by
  have stood := h.stands r opened
  have exact := (h'.stands r' there).exact h'.slides
  rw [← h'.removed_eq] at exact
  have moved := later.next_le
  rw [ended] at moved
  obtain ⟨k, place⟩ := Nat.exists_eq_add_of_le moved
  have within := exact.next_le
  rw [grown, List.length_append, place] at within
  have found := exact.found_eq
  have fails := exact.fails_iff
  have next := exact.next_eq
  simp only [grown, later.source_eq, later.start_eq, place] at found fails next
  refine ⟨k, by omega, place, ?_, fails, ?_⟩
  · have start_le : r.start ≤ w.history.length := ended ▸ stood.start_le
    rw [found, stood.found_eq, ended, List.take_length, List.take_length_add_append,
      List.drop_append_of_le_length start_le, List.filter_append]
  · intro kept
    rw [next kept, List.drop_length_add_append]

/-- What clearing a store comes to, after any later actions. -/
theorem Inv.cleared (h : w.Inv) (opened : w.readings[n]? = some r) (later : List Action) :
    ∃ r', ((w.next .clear).run later).readings[n]? = some r' ∧
      r.Cleared w.history (insertedBy later) ((w.next .clear).run later) r' := by
  have after := h.clear.run later
  have grown : ((w.next .clear).run later).history = w.history ++ insertedBy later :=
    (w.next .clear).history_run later
  by_cases ended : r.cursor.next < w.history.length
  · have behind : r.Lost (w.next .clear).store r :=
      ⟨rfl, rfl, Nat.lt_of_lt_of_eq ended h.first_clear.symm⟩
    obtain ⟨r', there, lost⟩ := exists_reading_run (w := w.next .clear) (P := r.Lost)
      (fun _ _ _ moved lost => lost.slide moved) (fun _ _ lost => lost.ask) opened behind later
    refine ⟨r', there, fun _ => ⟨lost.found_eq, ?_⟩, fun all => absurd all (Nat.ne_of_lt ended)⟩
    rw [lost.tryNext_eq, lost.cursor_eq]
  · obtain ⟨r', there, since⟩ := exists_reading_run (w := w.next .clear)
      (P := fun _ => r.Later) (fun _ _ _ _ since => since) (fun s _ since => since.ask s) opened
      (.refl r) later
    refine ⟨r', there, fun ahead => absurd ahead ended, ?_⟩
    exact h.spared after grown (List.mem_of_getElem? opened) (List.mem_of_getElem? there) since

/-- The cursor with this number fails when it is asked. -/
def Fails (w : MemoryReadership) (n : Nat) : Prop :=
  ∃ r position, w.readings[n]? = some r ∧
    (r.cursor.tryNext w.store).1 = .error (.cursorInvalidated position)

end MemoryReadership

/-- A store in memory is cleared after any insertions, clearings, openings of cursors and questions
to them. A cursor that was opened before fails from then on, whatever is done later, exactly if it
had not passed over all documents that were ever inserted. Otherwise it answers nothing at first, and
then the documents that are inserted later, as long as these are not removed before it has passed
over them. -/
theorem MemoryStore.clear_invalidates_iff (limit : Option Nat)
    (before : List MemoryReadership.Action) {n : Nat} {r : MemoryReading}
    (opened : ((MemoryReadership.start limit).run before).readings[n]? = some r) :
    let w := (MemoryReadership.start limit).run before
    ((∀ later, ((w.next .clear).run later).Fails n) ↔ r.cursor.next < w.history.length) ∧
      r.cursor.next ≤ w.history.length ∧
      ∀ later, ∃ r', ((w.next .clear).run later).readings[n]? = some r' ∧
        r.Cleared w.history (MemoryReadership.insertedBy later) ((w.next .clear).run later) r' := by
  intro w
  have inv : w.Inv := (MemoryReadership.Inv.start limit).run before
  have within := (inv.stands r (List.mem_of_getElem? opened)).next_le
  refine ⟨⟨?_, ?_⟩, within, inv.cleared opened⟩
  · -- Asked right after the clearing, a cursor at the end does not fail.
    intro fails
    by_contra ended
    obtain ⟨r', there, cleared⟩ := inv.cleared opened []
    obtain ⟨k, spared⟩ := cleared.spared (by omega)
    obtain ⟨r'', position, same, failed⟩ := fails []
    have now := Option.some.inj (same.symm.trans there)
    subst now
    have removed : (w.next .clear).removed = w.history.length :=
      (inv.clear.removed_eq).trans inv.first_clear
    have passed := ((spared.fails_iff _).mp failed).1
    rw [MemoryReadership.run, List.foldl_nil, removed] at passed
    omega
  · intro ahead later
    obtain ⟨r', there, cleared⟩ := inv.cleared opened later
    exact ⟨r', r.cursor.next, there, by rw [(cleared.lost ahead).2]⟩

/-- Two cursors are opened on a store of one document, and the second one is asked. When the store
is cleared and a document is inserted, the first cursor fails, and the second one answers the new
document. -/
theorem MemoryStore.clear_invalidates_iff_for_one_of_two :
    let t : Instant := ⟨0, 0, by decide, by decide, by decide, by decide⟩
    let before : List MemoryReadership.Action :=
      [.insert ⟨t, 1, .null⟩, .tail t, .tail t, .ask 1]
    let later : List MemoryReadership.Action := [.ask 0, .ask 1, .insert ⟨t, 2, .null⟩, .ask 1]
    let w := (MemoryReadership.start (some 2)).run before
    let w' := (w.next .clear).run later
    ∃ r₀ r₁, w.readings[0]? = some r₀ ∧ w.readings[1]? = some r₁ ∧
      (∀ later, ((w.next .clear).run later).Fails 0) ∧
      (¬∀ later, ((w.next .clear).run later).Fails 1) ∧
      w'.readings.map (·.found) = [[], [⟨t, 1, .null⟩, ⟨t, 2, .null⟩]] ∧
      w'.readings.map (·.failure) = [some (.cursorInvalidated 0), none] := by
  intro t before later w w'
  have first : w.readings[0]? = some ⟨⟨0, t⟩, t, 0, [], none⟩ := by rfl
  have second : w.readings[1]? = some ⟨⟨1, t⟩, t, 0, [⟨t, 1, .null⟩], none⟩ := by rfl
  have lost := (MemoryStore.clear_invalidates_iff (some 2) before first).1
  have spared := (MemoryStore.clear_invalidates_iff (some 2) before second).1
  refine ⟨_, _, first, second, lost.mpr (by decide), ?_, by decide +kernel, by decide +kernel⟩
  rw [spared]
  decide

end TraceJournal
