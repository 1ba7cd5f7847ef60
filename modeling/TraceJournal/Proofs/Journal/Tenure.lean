import Mathlib.Data.List.Induction
import TraceJournal.Proofs.Journal.Course

/-!
# The generation in charge

A reader over any length of time, whatever its store is like and whichever calls fail. It can be
moved while its worker is busy with a slot, at any point between two phases; the slot is superseded
then. Nothing that the worker still does with a superseded slot changes anything of the reader: what
is buffered was answered by a cursor of the present generation, a wait that was overtaken by a move
ends without another one, and the checkpoint is that of the last move that succeeded.
-/

namespace TraceJournal

/-- The document that the worker has in its hands, with the slot whose cursor answered it. -/
def Phase.document? : Phase → Option (Slot × Document)
  | arrived slot d => some (slot, d)
  | keeping slot d => some (slot, d)
  | _ => none

namespace Reader

/-- What happens to a reader. An action that calls the store comes with the link as it is then, so
that nothing is assumed of what is stored and of which calls fail. -/
inductive Action where
  /-- The reader is moved; `now` is the present then. -/
  | move (time : Option Instant) (now : Instant) (link : Link)
  /-- The worker goes through one phase. -/
  | work (now : Instant) (link : Link)
  /-- Buffered records are fetched. -/
  | fetch (before : Option Instant)
  | close

/-- The reader after an action. -/
def next (r : Reader) : Action → Reader
  | .move time now link => (r.moveTo time now link).2.1
  | .work now link => (r.step now link).1
  | .fetch before => (r.fetch before).2
  | .close => r.close

/-- The reader after some actions. -/
def run (r : Reader) (actions : List Action) : Reader := actions.foldl next r

/-- The checkpoint that a move answers, if it moves the reader. -/
def movedTo (r : Reader) : Action → Option Checkpoint
  | .move time now link => if r.enabled then (r.moveTo time now link).1.toOption else none
  | _ => none

/-- The checkpoint to which the reader moves itself, if it counts one more recovery. -/
def resyncedTo (r : Reader) : Action → Option Checkpoint
  | .work now link =>
    if (r.step now link).1.recoveries = r.recoveries then none else some (.after now)
  | _ => none

/-- The checkpoint to which the reader is moved, or moves itself. -/
def repositionedTo (r : Reader) (action : Action) : Option Checkpoint :=
  (r.movedTo action).or (r.resyncedTo action)

/-- The checkpoints that come of some actions, when `out` is what comes of one. -/
def collect (out : Reader → Action → Option Checkpoint) (r : Reader) :
    List Action → List Checkpoint
  | [] => []
  | action :: rest => (out r action).toList ++ (r.next action).collect out rest

/-- The checkpoints of all moves that succeed. -/
def moves (r : Reader) (actions : List Action) : List Checkpoint := r.collect movedTo actions

/-- The checkpoints of all moves that succeed, those that the reader makes itself included. -/
def repositions (r : Reader) (actions : List Action) : List Checkpoint :=
  r.collect repositionedTo actions

/-- At some point of a run the worker asked the cursor of a slot, which answered the document. -/
def Answered (r : Reader) (actions : List Action) (slot : Slot) (d : Document) : Prop :=
  ∃ earlier now link later cursor, actions = earlier ++ .work now link :: later ∧
    (r.run earlier).phase = .asking slot ∧ (link.tryNext slot.cursor).1 = .ok (some d) ∧
    ((r.run earlier).next (.work now link)).phase = .arrived { slot with cursor } d

/-- The document was answered by the cursor of the slot, wherever that has moved since. -/
def CameWith (r : Reader) (actions : List Action) (slot : Slot) (d : Document) : Prop :=
  ∃ asked, r.Answered actions asked d ∧ asked.generation = slot.generation ∧
    asked.checkpoint = slot.checkpoint

/-- A cursor of the generation that is present after the run has answered a document of which the
record is to be buffered. -/
def Brought (r : Reader) (actions : List Action) (record : Record) : Prop :=
  ∃ slot d, r.Answered actions slot d ∧ slot.generation = (r.run actions).generation ∧
    (r.run actions).checkpoint = some slot.checkpoint ∧ admitted? slot.checkpoint d = some record

@[simp] theorem run_nil (r : Reader) : r.run [] = r := rfl

@[simp] theorem run_cons (r : Reader) (action : Action) (rest : List Action) :
    r.run (action :: rest) = (r.next action).run rest := rfl

@[simp] theorem run_concat (r : Reader) (actions : List Action) (action : Action) :
    r.run (actions ++ [action]) = (r.run actions).next action := by
  simp only [run, List.foldl_append, List.foldl_cons, List.foldl_nil]

theorem run_append (r : Reader) (actions more : List Action) :
    r.run (actions ++ more) = (r.run actions).run more := by
  simp only [run, List.foldl_append]

theorem reached_next {r : Reader} (h : r.Reached) (action : Action) : (r.next action).Reached := by
  cases action with
  | move time now link => exact h.moveTo time now link
  | work now link => exact h.step now link
  | fetch before => exact h.fetch before
  | close => exact h.close

theorem reached_run {r : Reader} (h : r.Reached) (actions : List Action) :
    (r.run actions).Reached := by
  induction actions generalizing r with
  | nil => exact h
  | cons action rest ih => exact ih (reached_next h action)

/-! ## Staying and moving -/

/-- The reader is where it was: no other cursor was opened for it. -/
structure Stays (r r' : Reader) : Prop where
  generation_eq : r'.generation = r.generation
  recoveries_eq : r'.recoveries = r.recoveries
  checkpoint_eq : r'.checkpoint = r.checkpoint
  state_eq : r'.state = r.state ∨ r.checkpoint ≠ none ∧ r'.state ≠ .unpositioned

namespace Stays

variable {r : Reader}

theorem refl (r : Reader) : r.Stays r := ⟨rfl, rfl, rfl, .inl rfl⟩

theorem withPhase {r' : Reader} (h : r.Stays r') (phase : Phase) : r.Stays { r' with phase } :=
  ⟨h.generation_eq, h.recoveries_eq, h.checkpoint_eq, h.state_eq⟩

/-- The cursor of the slot that the worker is busy with has moved; a slot of an older generation is
not the reader's. -/
theorem keepCursor (reached : r.Reached) {slot : Slot} (busy : r.phase.slot? = some slot)
    (cursor : Cursor) : r.Stays (r.keepCursor { slot with cursor }) := by
  unfold Reader.keepCursor
  split
  · next current present =>
    split
    · next same =>
      have own : slot.generation = r.generation :=
        same.symm.trans (reached.dated.slot_eq current present)
      have held := reached.held slot busy own
      refine ⟨rfl, rfl, ?_, .inl rfl⟩
      simp only [checkpoint, held, Option.map_some]
    · exact refl r
  · exact refl r

/-- Only a reader that has a slot is marked. -/
theorem mark (reached : r.Reached) {slot : Slot} (busy : r.phase.slot? = some slot)
    {state : ReaderState} (placed : state ≠ .unpositioned) :
    r.Stays (r.mark slot.generation state) := by
  unfold Reader.mark
  split
  · next own =>
    have held := reached.held slot busy own.symm
    refine ⟨rfl, rfl, rfl, .inr ⟨?_, placed⟩⟩
    simp [checkpoint, held]
  · exact refl r

theorem push (generation : Nat) (record : Record) : r.Stays (r.push generation record) := by
  obtain ⟨buffer, pushed⟩ := r.exists_push generation record
  rw [pushed]
  exact ⟨rfl, rfl, rfl, .inl rfl⟩

end Stays

/-- A phase of the worker leaves the reader where it is, or moves it to just after the present. -/
theorem step_cases {r : Reader} (reached : r.Reached) (now : Instant) (link : Link) :
    r.Stays (r.step now link).1 ∨ ∃ cursor, r.phase = .waiting r.generation ∧
      (r.step now link).1 =
        { r.repositioned (.after now) cursor with
            recoveries := r.recoveries + 1
            phase := .ready } := by
  have stepped := r.stepped now link
  generalize r.step now link = answer at stepped ⊢
  cases stepped with
  | off | unplaced => exact .inl (.refl r)
  | @finds slot _ _ _ hp | @findsNothing slot _ _ hp | @fails slot _ _ _ hp =>
    have busy : r.phase.slot? = some slot := by rw [hp]; rfl
    exact .inl ((Stays.keepCursor reached busy _).withPhase _)
  | @notes slot _ hp | @rests slot hp | @gives slot hp =>
    have busy : r.phase.slot? = some slot := by rw [hp]; rfl
    exact .inl ((Stays.mark reached busy (by decide)).withPhase _)
  | keeps => exact .inl ((Stays.push _ _).withPhase _)
  | @resyncs cursor _ hp => exact .inr ⟨cursor, hp, rfl⟩
  | _ => exact .inl ((Stays.refl r).withPhase _)

/-- An action moves the reader, or has it move itself, or leaves it where it is. -/
theorem next_cases {r : Reader} (reached : r.Reached) (action : Action) :
    (∃ c cursor, r.movedTo action = some c ∧ r.resyncedTo action = none ∧
      r.next action = r.repositioned c cursor) ∨
    (∃ c cursor, r.movedTo action = none ∧ r.resyncedTo action = some c ∧
      r.next action =
        { r.repositioned c cursor with recoveries := r.recoveries + 1, phase := .ready }) ∨
    (r.movedTo action = none ∧ r.resyncedTo action = none ∧ r.Stays (r.next action)) := by
  cases action with
  | move time now link =>
    rcases moveTo_cases time now r link with ⟨cursor, link', -, moved⟩ | ⟨same, -, fails⟩
    · by_cases on : r.enabled = true
      · left
        refine ⟨_, cursor, ?_, rfl, congrArg (·.2.1) moved⟩
        simp only [movedTo, if_pos on, moved, Except.toOption]
      · right; right
        refine ⟨if_neg on, rfl, ?_⟩
        simp only [next, Reader.moveTo, if_neg on]
        exact .refl r
    · right; right
      refine ⟨?_, rfl, ?_⟩
      · by_cases on : r.enabled = true
        · obtain ⟨e, failed⟩ := fails on
          simp only [movedTo, if_pos on, failed, Except.toOption]
        · exact if_neg on
      · simp only [next, same]
        exact .refl r
  | work now link =>
    right
    rcases step_cases reached now link with stays | ⟨cursor, -, stepped⟩
    · exact .inr ⟨rfl, if_pos stays.recoveries_eq, stays⟩
    · left
      refine ⟨.after now, cursor, rfl, ?_, stepped⟩
      have counted : (r.step now link).1.recoveries ≠ r.recoveries := by
        rw [stepped]
        exact Nat.succ_ne_self _
      simp only [resyncedTo, if_neg counted]
  | fetch before =>
    obtain ⟨buffer, fetched⟩ := r.exists_fetch before
    right; right
    refine ⟨rfl, rfl, ?_⟩
    simp only [next, fetched]
    exact ⟨rfl, rfl, rfl, .inl rfl⟩
  | close => exact .inr (.inr ⟨rfl, rfl, ⟨rfl, rfl, rfl, .inl rfl⟩⟩)

/-- The checkpoint is that of the last move that succeeded. -/
theorem checkpoint_run {r : Reader} (reached : r.Reached) (actions : List Action) :
    (r.run actions).checkpoint = (r.repositions actions).getLast?.or r.checkpoint := by
  induction actions generalizing r with
  | nil => rfl
  | cons action rest ih =>
    have first : (r.next action).checkpoint = (r.repositionedTo action).or r.checkpoint := by
      unfold repositionedTo
      rcases next_cases reached action with
        ⟨c, cursor, moved, -, same⟩ | ⟨c, cursor, unmoved, resynced, same⟩ |
        ⟨unmoved, unsynced, stays⟩
      · rw [moved, same]
        rfl
      · rw [unmoved, resynced, same]
        rfl
      · rw [unmoved, unsynced, stays.checkpoint_eq]
        rfl
    have all : r.repositions (action :: rest) =
        (r.repositionedTo action).toList ++ (r.next action).repositions rest := rfl
    rw [run_cons, ih (reached_next reached action), first, all, List.getLast?_append,
      Option.or_assoc]
    cases r.repositionedTo action <;> rfl

/-! ## Where buffered records come from -/

/-- Only the worker goes to another phase. -/
theorem phase_next (r : Reader) {action : Action} (idle : ∀ now link, action ≠ .work now link) :
    (r.next action).phase = r.phase := by
  cases action with
  | move time now link =>
    rcases reader_moveTo time now r link with same | ⟨cursor, moved⟩
    · rw [next, same]
    · rw [next, moved]
      rfl
  | work now link => exact absurd rfl (idle now link)
  | fetch before =>
    obtain ⟨buffer, fetched⟩ := r.exists_fetch before
    rw [next, fetched]
  | close => rfl

/-- A record is buffered that was buffered before, or the worker keeps it for the slot of the
present generation. -/
theorem mem_buffer_step {r : Reader} {now : Instant} {link : Link} {record : Record}
    (h : record ∈ (r.step now link).1.buffer) :
    record ∈ r.buffer ∨ ∃ slot d, r.phase = .keeping slot d ∧ slot.generation = r.generation ∧
      admitted? slot.checkpoint d = some record := by
  have stepped := r.stepped now link
  generalize r.step now link = answer at stepped h
  cases stepped with
  | finds | findsNothing | fails => exact .inl (by simpa only [buffer_keepCursor] using h)
  | notes | rests | gives => exact .inl (by simpa only [buffer_mark] using h)
  | @keeps slot d kept hp admitted =>
    simp only [push] at h
    split at h
    · next own =>
      rcases List.mem_append.mp h with old | new
      · exact .inl old
      · rw [List.mem_singleton.mp new]
        exact .inr ⟨slot, d, hp, own.symm, admitted⟩
    · exact .inl h
  | resyncs => cases h
  | _ => exact .inl h

/-- A document that the worker has in its hands was there before, or the cursor has just answered
it. -/
theorem document_step {r : Reader} {now : Instant} {link : Link} {slot : Slot} {d : Document}
    (h : (r.step now link).1.phase.document? = some (slot, d)) :
    r.phase.document? = some (slot, d) ∨ ∃ asked cursor, r.phase = .asking asked ∧
      slot = { asked with cursor } ∧ (link.tryNext asked.cursor).1 = .ok (some d) ∧
      (r.step now link).1.phase = .arrived slot d := by
  have stepped := r.stepped now link
  generalize r.step now link = answer at stepped h ⊢
  cases stepped with
  | off => exact .inl h
  | unplaced => exact .inl h
  | @finds asked found cursor link' hp answered =>
    cases h
    exact .inr ⟨asked, cursor, hp, rfl, by rw [answered], rfl⟩
  | notes hp =>
    rw [hp]
    exact .inl h
  | _ => cases h

theorem Answered.concat {r : Reader} {actions : List Action} {slot : Slot} {d : Document}
    (h : r.Answered actions slot d) (action : Action) :
    r.Answered (actions ++ [action]) slot d := by
  obtain ⟨earlier, now, link, later, cursor, rfl, asked⟩ := h
  refine ⟨earlier, now, link, later ++ [action], cursor, ?_, asked⟩
  rw [List.append_assoc, List.cons_append]

theorem CameWith.concat {r : Reader} {actions : List Action} {slot : Slot} {d : Document}
    (h : r.CameWith actions slot d) (action : Action) :
    r.CameWith (actions ++ [action]) slot d := by
  obtain ⟨asked, answered, same⟩ := h
  exact ⟨asked, answered.concat action, same⟩

/-- What was brought stays so until the reader is moved. -/
theorem Brought.concat {r : Reader} {actions : List Action} {record : Record}
    (h : r.Brought actions record) {action : Action}
    (stays : (r.run actions).Stays ((r.run actions).next action)) :
    r.Brought (actions ++ [action]) record := by
  obtain ⟨slot, d, answered, generation, checkpoint, admitted⟩ := h
  refine ⟨slot, d, answered.concat action, ?_, ?_, admitted⟩
  · rw [run_concat, stays.generation_eq]
    exact generation
  · rw [run_concat, stays.checkpoint_eq]
    exact checkpoint

/-- What the worker has in its hands was answered by the cursor of the slot, and what is buffered by
cursors of the present generation. -/
structure Traced (r : Reader) (actions : List Action) : Prop where
  carried : ∀ slot d, (r.run actions).phase.document? = some (slot, d) → r.CameWith actions slot d
  buffered : ∀ record ∈ (r.run actions).buffer, r.Brought actions record

namespace Traced

variable {r : Reader} {actions : List Action}

/-- What the worker has in its hands after one more action. -/
private theorem carried_next (h : r.Traced actions) (action : Action) (slot : Slot) (d : Document)
    (carries : ((r.run actions).next action).phase.document? = some (slot, d)) :
    r.CameWith (actions ++ [action]) slot d := by
  by_cases working : ∃ now link, action = .work now link
  · obtain ⟨now, link, rfl⟩ := working
    rcases document_step carries with old | ⟨asked, cursor, hp, rfl, answered, arrived⟩
    · exact (h.carried slot d old).concat _
    · exact ⟨asked, ⟨actions, now, link, [], cursor, rfl, hp, answered, arrived⟩, rfl, rfl⟩
  · rw [phase_next _ fun now link same => working ⟨now, link, same⟩] at carries
    exact (h.carried slot d carries).concat action

/-- What is buffered after an action that leaves the reader where it is. -/
private theorem buffered_stay (h : r.Traced actions) (reached : (r.run actions).Reached)
    {action : Action} (stays : (r.run actions).Stays ((r.run actions).next action))
    (record : Record) (member : record ∈ ((r.run actions).next action).buffer) :
    r.Brought (actions ++ [action]) record := by
  cases action with
  | move time now link =>
    have less := (r.run actions).buffer_moveTo time now link
    exact (h.buffered record (less.subset member)).concat stays
  | work now link =>
    rcases mem_buffer_step member with old | ⟨slot, d, hp, own, admitted⟩
    · exact (h.buffered record old).concat stays
    · -- The record is kept now, for the reader's own slot.
      obtain ⟨asked, answered, generation, checkpoint⟩ := h.carried slot d (by rw [hp]; rfl)
      have held := reached.held slot (by rw [hp]; rfl) own
      refine ⟨asked, d, answered.concat _, ?_, ?_, checkpoint ▸ admitted⟩
      · rw [run_concat, stays.generation_eq]
        exact generation.trans own
      · rw [run_concat, stays.checkpoint_eq, Reader.checkpoint, held, Option.map_some, checkpoint]
  | fetch time =>
    have perm := (r.run actions).fetch_perm time
    have old := perm.subset (List.mem_append_right _ member)
    exact (h.buffered record old).concat stays
  | close => exact (h.buffered record member).concat stays

theorem start (idle : r.phase.document? = none) (empty : r.buffer = []) : r.Traced [] := by
  constructor
  · intro slot d carries
    rw [run_nil, idle] at carries
    cases carries
  · intro record member
    rw [run_nil, empty] at member
    cases member

theorem concat (h : r.Traced actions) (reached : (r.run actions).Reached) (action : Action) :
    r.Traced (actions ++ [action]) := by
  constructor
  · intro slot d carries
    rw [run_concat] at carries
    exact h.carried_next action slot d carries
  · intro record member
    rw [run_concat] at member
    rcases next_cases reached action with
      ⟨c, cursor, -, -, moved⟩ | ⟨c, cursor, -, -, moved⟩ | ⟨-, -, stays⟩
    · rw [moved] at member
      cases member
    · rw [moved] at member
      cases member
    · exact h.buffered_stay reached stays record member

end Traced

/-- All that is buffered over a run comes from cursors of the generations that were present then. -/
theorem traced_run (capacity : Nat) (enabled : Bool) (actions : List Action) :
    (create capacity enabled).Traced actions := by
  induction actions using List.reverseRecOn with
  | nil => exact .start rfl rfl
  | append_singleton actions action ih =>
    exact ih.concat (reached_run (.create capacity enabled) actions) action

/-! ## Waiting for another try -/

/-- While the worker rests and no move succeeds, the reader is where it was. -/
theorem rest_run {r : Reader} (reached : r.Reached) {actions : List Action}
    (idle : ∀ now link, .work now link ∉ actions) (unmoved : r.moves actions = []) :
    (r.run actions).phase = r.phase ∧ (r.run actions).generation = r.generation ∧
      (r.run actions).checkpoint = r.checkpoint := by
  induction actions generalizing r with
  | nil => exact ⟨rfl, rfl, rfl⟩
  | cons action rest ih =>
    have first : ∀ now link, action ≠ .work now link := fun now link same =>
      idle now link (same ▸ List.mem_cons_self)
    have all : r.moves (action :: rest) =
        (r.movedTo action).toList ++ (r.next action).moves rest := rfl
    obtain ⟨here, later⟩ := List.append_eq_nil_iff.mp (all.symm.trans unmoved)
    obtain ⟨phase, generation, checkpoint⟩ := ih (reached_next reached action)
      (fun now link member => idle now link (List.mem_cons_of_mem _ member)) later
    have stays : r.Stays (r.next action) := by
      rcases next_cases reached action with
        ⟨c, cursor, moved, -, -⟩ | ⟨c, cursor, -, resynced, -⟩ | ⟨-, -, stays⟩
      · rw [moved] at here
        cases here
      · cases action with
        | work now link => exact absurd rfl (first now link)
        | _ => cases resynced
      · exact stays
    exact ⟨phase.trans (r.phase_next first), generation.trans stays.generation_eq,
      checkpoint.trans stays.checkpoint_eq⟩

/-- A move that succeeds repositions the reader. -/
theorem exists_repositioned {r : Reader} (reached : r.Reached) {action : Action} {c : Checkpoint}
    (moved : r.movedTo action = some c) : ∃ cursor, r.next action = r.repositioned c cursor := by
  rcases next_cases reached action with
    ⟨c', cursor, moved', -, there⟩ | ⟨c', cursor, unmoved, -⟩ | ⟨unmoved, -⟩
  · rw [moved] at moved'
    cases moved'
    exact ⟨cursor, there⟩
  · rw [moved] at unmoved
    cases unmoved
  · rw [moved] at unmoved
    cases unmoved

/-- A wait for a generation that the reader has left ends without another move. -/
theorem step_waiting {r : Reader} {g : Nat} (waiting : r.phase = .waiting g)
    (older : g ≠ r.generation) (now : Instant) (link : Link) :
    ∃ phase, r.step now link = ({ r with phase }, link) := by
  have stepped := r.stepped now link
  generalize r.step now link = answer at stepped ⊢
  cases stepped with
  | off => exact ⟨r.phase, rfl⟩
  | superseded => exact ⟨.ready, rfl⟩
  | stays hp | resyncs hp =>
    rw [hp] at waiting
    cases waiting
    exact absurd rfl older
  | unplaced hp | takes hp | pauses hp | turns hp | finds hp | findsNothing hp | fails hp | notes hp
    | drops hp | keeps hp | rests hp | gives hp =>
    rw [hp] at waiting
    cases waiting

/-- A reader that is moved while its worker waits stays where it was moved to. -/
theorem waited {r : Reader} (reached : r.Reached) {g : Nat} (waiting : r.phase = .waiting g)
    {move : Action} {c : Checkpoint} (moved : r.movedTo move = some c) {between : List Action}
    (idle : ∀ now link, .work now link ∉ between) (unmoved : (r.next move).moves between = [])
    (now : Instant) (link : Link) :
    ∃ phase, ((r.next move).run between).checkpoint = some c ∧
      ((r.next move).run between).step now link =
        ({ (r.next move).run between with phase }, link) := by
  have le := reached.dated.phase_le g (by rw [waiting]; rfl)
  obtain ⟨cursor, there⟩ := exists_repositioned reached moved
  obtain ⟨phase, generation, checkpoint⟩ := rest_run (reached_next reached move) idle unmoved
  rw [there] at phase generation checkpoint ⊢
  have older : g ≠ ((r.repositioned c cursor).run between).generation := by
    rw [generation]
    exact Nat.ne_of_lt (Nat.lt_succ_of_le le)
  obtain ⟨phase', stepped⟩ := step_waiting (phase.trans waiting) older now link
  exact ⟨phase', checkpoint, stepped⟩

/-! ## The present generation alone -/

/-- What of a run of the reader is settled by its present generation alone. -/
structure Settled (r : Reader) (actions : List Action) : Prop where
  phase_le : ∀ g, (r.run actions).phase.generation? = some g → g ≤ (r.run actions).generation
  /-- A phase for a superseded slot changes nothing of the reader but what the worker is busy with,
  which is that slot until it is free again, and calls nothing but the cursor of that slot. -/
  superseded : ∀ g, (r.run actions).phase.generation? = some g → g < (r.run actions).generation →
    ∀ now link, ∃ phase link',
      (r.run actions).step now link = ({ r.run actions with phase }, link') ∧
      (link' = link ∨ ∃ cursor, link' = (link.tryNext cursor).2.2) ∧
      (phase = .ready ∨ phase.generation? = some g)
  /-- What is buffered was answered by a cursor of the present generation. -/
  buffered : ∀ record ∈ (r.run actions).buffer, r.Brought actions record
  /-- If the reader is moved while the worker waits, the wait ends without another move: the reader
  is then where it was moved last. -/
  waited : ∀ g, (r.run actions).phase = .waiting g →
    ∀ move c, (r.run actions).movedTo move = some c →
    ∀ between, (∀ now link, .work now link ∉ between) →
      ((r.run actions).next move).moves between = [] →
    ∀ now link, ∃ phase,
      (r.run (actions ++ move :: between)).checkpoint = some c ∧
      (r.run (actions ++ move :: between)).step now link =
        ({ r.run (actions ++ move :: between) with phase }, link)
  /-- The checkpoint is that of the last move that succeeded. -/
  checkpoint_eq : (r.run actions).checkpoint = (r.repositions actions).getLast?

/-- Whatever happens to a reader, only its present generation has an effect. -/
theorem superseded_slots_have_no_effect (capacity : Nat) (enabled : Bool) (actions : List Action) :
    (create capacity enabled).Settled actions := by
  have reached := reached_run (.create capacity enabled) actions
  refine ⟨reached.dated.phase_le, ?_, (traced_run capacity enabled actions).buffered, ?_, ?_⟩
  · intro g busy older now link
    exact step_superseded busy (Nat.ne_of_lt older) reached.dated.slot_eq now link
  · intro g waiting move c moved between idle unmoved now link
    rw [run_append, run_cons]
    exact waited reached waiting moved idle unmoved now link
  · rw [checkpoint_run (.create capacity enabled)]
    exact Option.or_none

end Reader

end TraceJournal
