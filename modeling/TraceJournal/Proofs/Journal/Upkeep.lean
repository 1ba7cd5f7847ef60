import TraceJournal.Proofs.Journal.Tenure

/-!
# What a reader keeps to

Whatever is asked of a reader and whatever its store answers, there is never more in the buffer than
there is room for, nothing that the checkpoint does not admit, and a generation for every move. The
worker looks for room some phases before it needs it: until then only it could have filled the
buffer.
-/

namespace TraceJournal

/-- The worker has found room in the buffer and has not used it. -/
def Phase.counts : Phase → Bool
  | asking _ => true
  | arrived _ _ => true
  | keeping _ _ => true
  | _ => false

namespace Reader

/-! ## Room in the buffer -/

/-- There is no more in the buffer than it may hold, and room for one record while the worker counts
on that. -/
structure Roomy (r : Reader) : Prop where
  buffer_le : r.buffer.length ≤ r.capacity
  room : r.phase.counts = true → r.buffer.length < r.capacity

namespace Roomy

variable {r : Reader}

/-- What makes the buffer no longer, when the worker counts on no more room than before. -/
theorem of_le (h : r.Roomy) {r' : Reader} (shorter : r'.buffer.length ≤ r.buffer.length)
    (capacity : r'.capacity = r.capacity)
    (counts : r'.phase.counts = true → r.phase.counts = true) : r'.Roomy := by
  constructor
  · rw [capacity]
    exact Nat.le_trans shorter h.buffer_le
  · intro counted
    rw [capacity]
    exact Nat.lt_of_le_of_lt shorter (h.room (counts counted))

/-- The worker does not count on any room. -/
theorem withPhase (h : r.Roomy) {phase : Phase} (free : phase.counts = false) :
    Roomy { r with phase } := by
  refine ⟨h.buffer_le, ?_⟩
  intro counted
  rw [free] at counted
  cases counted

theorem moveTo (h : r.Roomy) (time : Option Instant) (now : Instant) (link : Link) :
    (r.moveTo time now link).2.1.Roomy := by
  have less := (r.buffer_moveTo time now link).length_le
  rcases reader_moveTo time now r link with same | ⟨cursor, moved⟩
  · rw [same]
    exact h
  · rw [moved] at less ⊢
    exact h.of_le less rfl id

theorem fetch (h : r.Roomy) (before : Option Instant) : (r.fetch before).2.Roomy := by
  have parts := (r.fetch_perm before).length_eq
  rw [List.length_append] at parts
  have shorter : (r.fetch before).2.buffer.length ≤ r.buffer.length :=
    Nat.le_of_add_left_le (Nat.le_of_eq parts)
  obtain ⟨buffer, fetched⟩ := r.exists_fetch before
  rw [fetched] at shorter ⊢
  exact h.of_le shorter rfl id

/-- The cursor of a slot has moved, which changes nothing of the buffer. -/
theorem keepCursor (h : r.Roomy) (slot : Slot) : (r.keepCursor slot).Roomy := by
  obtain ⟨slot', kept⟩ := r.exists_keepCursor slot
  rw [kept]
  exact ⟨h.buffer_le, h.room⟩

theorem mark (h : r.Roomy) (generation : Nat) (state : ReaderState) :
    (r.mark generation state).Roomy := by
  obtain ⟨state', marked⟩ := r.exists_mark generation state
  rw [marked]
  exact ⟨h.buffer_le, h.room⟩

/-- The room that the worker counted on is enough for the record. -/
theorem push (h : r.Roomy) (counted : r.phase.counts = true) (generation : Nat) (record : Record) :
    Roomy { r.push generation record with phase := .ready } := by
  have room := h.room counted
  unfold Reader.push
  split
  · refine Roomy.mk ?_ (fun counted => absurd counted Bool.false_ne_true)
    simp only [List.length_append, List.length_singleton]
    exact room
  · exact h.withPhase rfl

theorem step (h : r.Roomy) (now : Instant) (link : Link) : (r.step now link).1.Roomy := by
  have stepped := r.stepped now link
  generalize r.step now link = answer at stepped ⊢
  cases stepped with
  | off => exact h
  | unplaced => exact h
  | turns hp free =>
    refine ⟨h.buffer_le, ?_⟩
    intro _
    simpa only [isFull, decide_eq_false_iff_not, Nat.not_le] using free
  | @finds slot _ cursor _ hp =>
    obtain ⟨slot', kept⟩ := r.exists_keepCursor { slot with cursor }
    rw [kept]
    exact ⟨h.buffer_le, fun _ => h.room (by rw [hp]; rfl)⟩
  | @notes slot _ hp =>
    obtain ⟨state, marked⟩ := r.exists_mark slot.generation .streaming
    rw [marked]
    exact ⟨h.buffer_le, fun _ => h.room (by rw [hp]; rfl)⟩
  | findsNothing | fails => exact (h.keepCursor _).withPhase rfl
  | keeps hp => exact h.push (by rw [hp]; rfl) _ _
  | rests | gives => exact (h.mark _ _).withPhase rfl
  | resyncs => exact ⟨Nat.zero_le _, fun counted => absurd counted Bool.false_ne_true⟩
  | _ => exact h.withPhase rfl

end Roomy

/-- Every reader that there can be has room for what its worker counts on. -/
theorem Reached.roomy {r : Reader} (h : r.Reached) : r.Roomy := by
  induction h with
  | create capacity enabled =>
    exact ⟨Nat.zero_le _, fun counted => absurd counted Bool.false_ne_true⟩
  | moveTo time now link _ ih => exact ih.moveTo time now link
  | step now link _ ih => exact ih.step now link
  | fetch before _ ih => exact ih.fetch before
  | close _ ih => exact ⟨ih.buffer_le, ih.room⟩

theorem capacity_next (r : Reader) (action : Action) : (r.next action).capacity = r.capacity := by
  cases action with
  | move time now link =>
    rcases reader_moveTo time now r link with same | ⟨cursor, moved⟩
    · rw [next, same]
    · rw [next, moved]
      rfl
  | work now link => exact (r.fixed_step now link).2.2
  | fetch before =>
    obtain ⟨buffer, fetched⟩ := r.exists_fetch before
    rw [next, fetched]
  | close => rfl

theorem capacity_run (r : Reader) (actions : List Action) :
    (r.run actions).capacity = r.capacity := by
  induction actions generalizing r with
  | nil => rfl
  | cons action rest ih => exact (ih _).trans (r.capacity_next action)

/-! ## Generations and places -/

/-- Every move, those included that the reader makes itself, starts one generation. -/
theorem generation_run {r : Reader} (reached : r.Reached) (actions : List Action) :
    (r.run actions).generation + r.recoveries =
      r.generation + (r.moves actions).length + (r.run actions).recoveries := by
  induction actions generalizing r with
  | nil => rfl
  | cons action rest ih =>
    have later := ih (reached_next reached action)
    have all : r.moves (action :: rest) =
        (r.movedTo action).toList ++ (r.next action).moves rest := rfl
    have first : (r.next action).generation + r.recoveries =
        r.generation + (r.movedTo action).toList.length + (r.next action).recoveries := by
      rcases next_cases reached action with
        ⟨c, cursor, moved, -, there⟩ | ⟨c, cursor, unmoved, -, there⟩ | ⟨unmoved, -, stays⟩
      · rw [moved, there]
        rfl
      · rw [unmoved, there]
        simp only [repositioned, Option.toList_none, List.length_nil]
        omega
      · rw [unmoved, stays.generation_eq, stays.recoveries_eq]
        rfl
    rw [run_cons, all, List.length_append]
    omega

/-- A reader is somewhere from its first generation on, and its state says so. -/
structure Placed (r : Reader) : Prop where
  state_iff : r.state = .unpositioned ↔ r.checkpoint = none
  checkpoint_iff : r.checkpoint = none ↔ r.generation = 0

namespace Placed

variable {r : Reader}

/-- A reader that has been moved. -/
theorem of_slot {slot : Slot} (here : r.slot = some slot) (state : r.state ≠ .unpositioned)
    (generation : r.generation ≠ 0) : r.Placed := by
  have some_checkpoint : r.checkpoint ≠ none := by simp [checkpoint, here]
  exact ⟨iff_of_false state some_checkpoint, iff_of_false some_checkpoint generation⟩

theorem stay (h : r.Placed) {r' : Reader} (stays : r.Stays r') : r'.Placed := by
  constructor
  · rw [stays.checkpoint_eq]
    rcases stays.state_eq with same | ⟨here, placed⟩
    · rw [same]
      exact h.state_iff
    · exact iff_of_false placed here
  · rw [stays.checkpoint_eq, stays.generation_eq]
    exact h.checkpoint_iff

theorem next (h : r.Placed) (reached : r.Reached) (action : Action) : (r.next action).Placed := by
  rcases next_cases reached action with
    ⟨c, cursor, -, -, there⟩ | ⟨c, cursor, -, -, there⟩ | ⟨-, -, stays⟩
  · rw [there]
    exact of_slot rfl ReaderState.noConfusion (Nat.succ_ne_zero _)
  · rw [there]
    exact of_slot rfl ReaderState.noConfusion (Nat.succ_ne_zero _)
  · exact h.stay stays

theorem run (h : r.Placed) (reached : r.Reached) (actions : List Action) :
    (r.run actions).Placed := by
  induction actions generalizing r with
  | nil => exact h
  | cons action rest ih => exact ih (h.next reached action) (reached_next reached action)

end Placed

/-! ## The reader at any time -/

/-- The record is wanted of a reader: no sentinel, and not before the checkpoint. -/
def Wants (r : Reader) (record : Record) : Prop :=
  record.isSentinel = false ∧ ∃ c, r.checkpoint = some c ∧ c.time ≤ record.time

theorem wanted_of_admitted {c : Checkpoint} {d : Document} {record : Record}
    (h : admitted? c d = some record) : record.isSentinel = false ∧ c.time ≤ record.time := by
  unfold admitted? at h
  split at h
  · split at h
    · cases h
    · next free =>
      cases h
      simpa [Checkpoint.admits] using free
  · cases h

/-- A reader that has been moved so often keeps to its capacity and to its checkpoint. -/
structure InOrder (r : Reader) (capacity moves : Nat) : Prop where
  buffer_le : r.buffer.length ≤ capacity
  buffered : ∀ record ∈ r.buffer, r.Wants record
  generation_eq : r.generation = moves + r.recoveries
  placed : r.Placed
  empty : r.generation = 0 → r.buffer = []
  /-- What is fetched is wanted of the reader as it is then. -/
  fetched : ∀ before, ∀ record ∈ (r.fetch before).1, (r.fetch before).2.Wants record

theorem in_order (capacity : Nat) (enabled : Bool) (actions : List Action) :
    ((create capacity enabled).run actions).InOrder capacity
      ((create capacity enabled).moves actions).length := by
  have fresh : (create capacity enabled).Reached := .create capacity enabled
  have reached := reached_run fresh actions
  have traced := traced_run capacity enabled actions
  have counted := generation_run fresh actions
  have placed : ((create capacity enabled).run actions).Placed :=
    Placed.run ⟨iff_of_true rfl rfl, iff_of_true rfl rfl⟩ fresh actions
  have room : ((create capacity enabled).run actions).buffer.length ≤ capacity := by
    have within := reached.roomy.buffer_le
    rwa [capacity_run] at within
  have buffered : ∀ record ∈ ((create capacity enabled).run actions).buffer,
      ((create capacity enabled).run actions).Wants record := by
    intro record member
    obtain ⟨slot, d, -, -, here, admitted⟩ := traced.buffered record member
    obtain ⟨own, late⟩ := wanted_of_admitted admitted
    exact ⟨own, slot.checkpoint, here, late⟩
  generalize (create capacity enabled).run actions = r at *
  refine ⟨room, buffered, ?_, placed, ?_, ?_⟩
  · simpa [create] using counted
  · intro none_yet
    apply List.eq_nil_iff_forall_not_mem.mpr
    intro record member
    obtain ⟨-, c, here, -⟩ := buffered record member
    rw [placed.checkpoint_iff.mpr none_yet] at here
    cases here
  · intro before record member
    have wanted := buffered record
      ((r.fetch_perm before).subset (List.mem_append_left _ member))
    obtain ⟨buffer, fetched⟩ := r.exists_fetch before
    rw [fetched]
    exact wanted

end Reader

end TraceJournal
