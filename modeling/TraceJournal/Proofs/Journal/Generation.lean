import TraceJournal.Proofs.Journal.Stepping

/-!
# Generations of a reader

Every successful move of a reader starts a new generation, with an empty buffer and a cursor of its
own. The worker may then still be busy with a slot of an older generation; nothing that it does with
that one changes the buffer, the slot or the store.
-/

namespace TraceJournal

namespace Link

/-- No call fails, and no document is poisoned. -/
structure Reliable (link : Link) : Prop where
  failures : ∀ call, link.failures call = 0
  poison : ∀ d, link.poison d = false

theorem reliable_reliable (store : Store) : (reliable store).Reliable :=
  ⟨fun _ => rfl, fun _ => rfl⟩

namespace Reliable

variable {link : Link}

theorem attempt_eq (h : link.Reliable) {α : Type} (call : Call)
    (action : Link → Except StoreError α × Link) : attempt call action link = action link := by
  simp only [attempt, h.failures]

theorem serialize_eq (h : link.Reliable) (r : Record) :
    link.serialize r = (.ok (Document.ofRecord r), link) :=
  h.attempt_eq _ _

theorem existsFrom_eq (h : link.Reliable) (source : Instant) :
    link.existsFrom source = (link.store.existsFrom source, link) :=
  h.attempt_eq _ _

theorem tailFrom_eq (h : link.Reliable) (source : Instant) :
    link.tailFrom source = (link.store.tailFrom source, link) :=
  h.attempt_eq _ _

theorem insert_eq (h : link.Reliable) (d : Document) :
    link.insert d =
      ((link.store.insert d).1, { link with store := (link.store.insert d).2 }) :=
  h.attempt_eq _ _

theorem insert (h : link.Reliable) (d : Document) : (link.insert d).2.Reliable := by
  rw [h.insert_eq]
  exact ⟨h.failures, h.poison⟩

theorem tryNext_eq (h : link.Reliable) (cursor : Cursor) :
    link.tryNext cursor =
      ((cursor.tryNext link.store).1, (cursor.tryNext link.store).2, link) := by
  simp only [tryNext, h.failures]
  split
  · next d found => simp only [h.poison, found, Bool.false_eq_true, if_false]
  · rfl

/-- Opening a cursor leaves a link reliable. -/
theorem openCursor (h : link.Reliable) (checkpoint : Checkpoint) :
    (Reader.openCursor checkpoint link).2.Reliable := by
  have all := Reader.opened checkpoint link
  generalize Reader.openCursor checkpoint link = answer at all ⊢
  have stays {α : Type} {e : StoreError} {link' : Link} {answer : Except StoreError α}
      (made : (answer, link) = (.error e, link')) : link'.Reliable := (Prod.mk.inj made).2 ▸ h
  have inserted := h.insert (Reader.anchor checkpoint)
  cases all with
  | free | met =>
    rw [h.tailFrom_eq]
    exact h
  | blind seen => exact stays (h.existsFrom_eq _ ▸ seen)
  | unmade failed => exact stays (h.serialize_eq _ ▸ failed)
  | refused _ _ failed =>
    rw [failed] at inserted
    exact inserted
  | anchored _ _ made =>
    rw [made] at inserted
    rw [inserted.tailFrom_eq]
    exact inserted

end Reliable

end Link

/-! ## What a worker is busy with -/

/-- The generation of what the worker is busy with. -/
def Phase.generation? : Phase → Option Nat
  | ready => none
  | holding slot => some slot.generation
  | asking slot => some slot.generation
  | arrived slot _ => some slot.generation
  | keeping slot _ => some slot.generation
  | exhausted slot => some slot.generation
  | broken slot => some slot.generation
  | waiting generation => some generation

/-- The slot that the worker is busy with. -/
def Phase.slot? : Phase → Option Slot
  | holding slot => some slot
  | asking slot => some slot
  | arrived slot _ => some slot
  | keeping slot _ => some slot
  | exhausted slot => some slot
  | broken slot => some slot
  | _ => none

theorem Phase.generation?_of_slot? {phase : Phase} {slot : Slot} (h : phase.slot? = some slot) :
    phase.generation? = some slot.generation := by
  cases phase <;> cases h <;> rfl

namespace Reader

/-- The slot is of the present generation, and the worker is busy with nothing newer. -/
structure Dated (r : Reader) : Prop where
  phase_le : ∀ g, r.phase.generation? = some g → g ≤ r.generation
  slot_eq : ∀ slot, r.slot = some slot → slot.generation = r.generation

/-- The readers that there can be: made by `create`, and then moved, run, fetched from and closed in
any order, over whatever links. -/
inductive Reached : Reader → Prop where
  | create (capacity : Nat) (enabled : Bool) : Reached (create capacity enabled)
  | moveTo {r : Reader} (time : Option Instant) (now : Instant) (link : Link) :
    Reached r → Reached (r.moveTo time now link).2.1
  | step {r : Reader} (now : Instant) (link : Link) : Reached r → Reached (r.step now link).1
  | fetch {r : Reader} (before : Option Instant) : Reached r → Reached (r.fetch before).2
  | close {r : Reader} : Reached r → Reached r.close

theorem generation_keepCursor (r : Reader) (slot : Slot) :
    (r.keepCursor slot).generation = r.generation := by
  obtain ⟨slot', kept⟩ := r.exists_keepCursor slot
  rw [kept]

theorem generation_mark (r : Reader) (generation : Nat) (state : ReaderState) :
    (r.mark generation state).generation = r.generation := by
  obtain ⟨state', marked⟩ := r.exists_mark generation state
  rw [marked]

namespace Dated

variable {r : Reader}

theorem repositioned (h : r.Dated) (checkpoint : Checkpoint) (cursor : Cursor) :
    (r.repositioned checkpoint cursor).Dated := by
  constructor
  · intro g hg
    exact Nat.le_succ_of_le (h.phase_le g hg)
  · intro slot hs
    cases hs
    rfl

theorem moveTo (h : r.Dated) (time : Option Instant) (now : Instant) (link : Link) :
    (r.moveTo time now link).2.1.Dated := by
  rcases reader_moveTo time now r link with same | ⟨cursor, moved⟩
  · rw [same]
    exact h
  · rw [moved]
    exact h.repositioned _ cursor

theorem keepCursor (h : r.Dated) (slot : Slot) : (r.keepCursor slot).Dated := by
  unfold Reader.keepCursor
  split
  · next current hc =>
    split
    · next same =>
      refine ⟨h.phase_le, ?_⟩
      intro slot' hs
      cases hs
      rw [← same]
      exact h.slot_eq current hc
    · exact h
  · exact h

theorem withPhase (h : r.Dated) {phase : Phase}
    (hp : ∀ g, phase.generation? = some g → g ≤ r.generation) : Dated { r with phase } :=
  ⟨hp, h.slot_eq⟩

theorem mark (h : r.Dated) (generation : Nat) (state : ReaderState) :
    (r.mark generation state).Dated := by
  unfold Reader.mark
  split
  · exact ⟨h.phase_le, h.slot_eq⟩
  · exact h

theorem push (h : r.Dated) (generation : Nat) (record : Record) :
    (r.push generation record).Dated := by
  unfold Reader.push
  split
  · exact ⟨h.phase_le, h.slot_eq⟩
  · exact h

theorem step (h : r.Dated) (now : Instant) (link : Link) : (r.step now link).1.Dated := by
  have le := h.phase_le
  have ready (generation : Nat) : ∀ g, Phase.ready.generation? = some g → g ≤ generation := by
    intro g hg
    cases hg
  have stepped := r.stepped now link
  generalize r.step now link = answer at stepped ⊢
  cases stepped with
  | off => exact h
  | unplaced => exact h
  | takes hp hs =>
    apply h.withPhase
    intro g hg
    cases hg
    exact Nat.le_of_eq (h.slot_eq _ hs)
  | turns hp =>
    rw [hp] at le
    exact h.withPhase le
  | finds hp | findsNothing hp | fails hp =>
    rw [hp] at le
    apply (h.keepCursor _).withPhase
    rw [generation_keepCursor]
    exact le
  | notes hp | gives hp =>
    rw [hp] at le
    apply (h.mark _ _).withPhase
    rw [generation_mark]
    exact le
  | keeps => exact (h.push _ _).withPhase (ready _)
  | rests => exact (h.mark _ _).withPhase (ready _)
  | pauses | drops | superseded | stays => exact h.withPhase (ready _)
  | @resyncs cursor => exact ⟨ready _, (h.repositioned (.after now) cursor).slot_eq⟩

end Dated

/-- What the worker is busy with is never newer than the reader. -/
theorem Reached.dated {r : Reader} (h : r.Reached) : r.Dated := by
  induction h with
  | create capacity enabled =>
    constructor
    · intro g hg
      cases hg
    · intro slot hs
      cases hs
  | moveTo time now link _ ih => exact ih.moveTo time now link
  | step now link _ ih => exact ih.step now link
  | fetch before _ ih =>
    unfold Reader.fetch
    split
    · split <;> exact ⟨ih.phase_le, ih.slot_eq⟩
    · exact ih
  | close _ ih => exact ⟨ih.phase_le, ih.slot_eq⟩

/-! ## The slot that the worker is busy with -/

/-- If the worker is busy with a slot of the present generation, that is the reader's slot. -/
def Held (r : Reader) : Prop :=
  ∀ slot, r.phase.slot? = some slot → slot.generation = r.generation → r.slot = some slot

namespace Held

variable {r : Reader}

theorem moveTo (h : r.Held) (dated : r.Dated) (time : Option Instant) (now : Instant)
    (link : Link) : (r.moveTo time now link).2.1.Held := by
  rcases reader_moveTo time now r link with same | ⟨cursor, moved⟩
  · rw [same]
    exact h
  · -- The worker is left with a slot of an older generation, if with any.
    rw [moved]
    intro slot busy current
    have le := dated.phase_le _ (Phase.generation?_of_slot? busy)
    simp only [repositioned] at current
    omega

/-- The worker lets go of its slot. -/
theorem withPhase {phase : Phase} (free : phase.slot? = none) : Held { r with phase } := by
  intro slot busy
  rw [free] at busy
  cases busy

/-- The cursor of a slot has moved, in the reader and in the worker's hands. -/
theorem keepCursor (h : r.Held) {slot : Slot} (busy : r.phase.slot? = some slot) (cursor : Cursor)
    {phase : Phase} (same : phase.slot? = some { slot with cursor }) :
    Held { r.keepCursor { slot with cursor } with phase } := by
  intro other busy' current
  simp only [generation_keepCursor] at current
  rw [same] at busy'
  cases busy'
  simp only [Reader.keepCursor, h slot busy current, if_true]

/-- The worker stays with its slot, in another phase. -/
theorem samePhase (h : r.Held) {r' : Reader} (slot : r'.slot = r.slot)
    (generation : r'.generation = r.generation) {phase : Phase}
    (same : phase.slot? = r.phase.slot?) : Held { r' with phase } := by
  intro other busy current
  simp only [generation] at current
  rw [same] at busy
  exact slot.trans (h other busy current)

end Held

theorem slot_mark (r : Reader) (generation : Nat) (state : ReaderState) :
    (r.mark generation state).slot = r.slot := by
  obtain ⟨state', marked⟩ := r.exists_mark generation state
  rw [marked]

theorem Held.step {r : Reader} (h : r.Held) (now : Instant) (link : Link) :
    (r.step now link).1.Held := by
  have stepped := r.stepped now link
  generalize r.step now link = answer at stepped ⊢
  cases stepped with
  | off => exact h
  | unplaced => exact h
  | takes hp hs =>
    intro slot busy current
    cases busy
    exact hs
  | turns hp => exact h.samePhase rfl rfl (by rw [hp]; rfl)
  | finds hp | findsNothing hp | fails hp => exact h.keepCursor (by rw [hp]; rfl) _ rfl
  | notes hp =>
    exact h.samePhase (slot_mark _ _ _) (generation_mark _ _ _) (by rw [hp]; rfl)
  | _ => exact withPhase rfl

/-- A slot of the present generation that the worker is busy with is the reader's slot. -/
theorem Reached.held {r : Reader} (h : r.Reached) : r.Held := by
  induction h with
  | create capacity enabled =>
    intro slot busy
    cases busy
  | moveTo time now link reached ih => exact ih.moveTo reached.dated time now link
  | step now link _ ih => exact ih.step now link
  | fetch before _ ih =>
    unfold Reader.fetch
    split
    · split <;> exact ih
    · exact ih
  | close _ ih => exact ih

theorem generation_push (r : Reader) (generation : Nat) (record : Record) :
    (r.push generation record).generation = r.generation := by
  obtain ⟨buffer, pushed⟩ := r.exists_push generation record
  rw [pushed]

/-- The worker leaves the generation as it is, or moves the reader to just after the present. -/
theorem step_moves (now : Instant) (r : Reader) (link : Link) :
    (r.step now link).1.generation = r.generation ∨
      ∃ cursor link', openCursor (.after now) link = (.ok cursor, link') ∧
        r.step now link =
          ({ r.repositioned (.after now) cursor with
              recoveries := r.recoveries + 1
              phase := .ready }, link') := by
  have stepped := r.stepped now link
  generalize r.step now link = answer at stepped ⊢
  cases stepped with
  | finds | findsNothing | fails => exact .inl (generation_keepCursor _ _)
  | notes | rests | gives => exact .inl (generation_mark _ _ _)
  | keeps => exact .inl (generation_push _ _ _)
  | resyncs _ opened => exact .inr ⟨_, _, opened, rfl⟩
  | _ => exact .inl rfl

/-! ## What an older generation brings -/

/-- While the worker is busy with an older generation, a phase changes nothing of the reader but
what the worker is busy with, nothing is called but that generation's cursor, and afterwards the
worker is busy with the same one or has nothing to do. -/
theorem step_superseded {r : Reader} {g : Nat} (busy : r.phase.generation? = some g)
    (older : g ≠ r.generation)
    (dated : ∀ slot, r.slot = some slot → slot.generation = r.generation) (now : Instant)
    (link : Link) :
    ∃ phase link', r.step now link = ({ r with phase }, link') ∧
      (link' = link ∨ ∃ cursor, link' = (link.tryNext cursor).2.2) ∧
      (phase = .ready ∨ phase.generation? = some g) := by
  -- A cursor of an older generation is not kept.
  have kept {slot : Slot} (past : slot.generation = g) (cursor : Cursor) :
      r.keepCursor { slot with cursor } = r := by
    unfold keepCursor
    split
    · next current hc =>
      rw [if_neg]
      rw [dated current hc, past]
      exact Ne.symm older
    · rfl
  have unmarked {slot : Slot} (past : slot.generation = g) (state : ReaderState) :
      r.mark slot.generation state = r := by
    rw [mark, if_neg]
    rw [past]
    exact Ne.symm older
  have stepped := r.stepped now link
  generalize r.step now link = answer at stepped ⊢
  cases stepped with
  | off => exact ⟨r.phase, link, rfl, .inl rfl, .inr busy⟩
  | unplaced hp | takes hp =>
    rw [hp] at busy
    cases busy
  | pauses | drops | superseded => exact ⟨.ready, link, rfl, .inl rfl, .inl rfl⟩
  | turns hp =>
    rw [hp] at busy
    exact ⟨_, link, rfl, .inl rfl, .inr busy⟩
  | finds hp answer | findsNothing hp answer | fails hp answer =>
    rw [hp] at busy
    cases busy
    rw [kept rfl]
    exact ⟨_, _, rfl, .inr ⟨_, (congrArg (·.2.2) answer).symm⟩, .inr rfl⟩
  | notes hp | gives hp =>
    rw [hp] at busy
    cases busy
    rw [unmarked rfl]
    exact ⟨_, link, rfl, .inl rfl, .inr rfl⟩
  | rests hp =>
    rw [hp] at busy
    cases busy
    rw [unmarked rfl]
    exact ⟨.ready, link, rfl, .inl rfl, .inl rfl⟩
  | keeps hp =>
    rw [hp] at busy
    cases busy
    rw [push, if_neg (Ne.symm older)]
    exact ⟨.ready, link, rfl, .inl rfl, .inl rfl⟩
  | stays hp | resyncs hp =>
    rw [hp] at busy
    cases busy
    exact absurd rfl older

/-- On a reliable link, the link stays as it is then. -/
theorem step_older {r : Reader} {link : Link} {g : Nat} (reliable : link.Reliable)
    (busy : r.phase.generation? = some g) (older : g ≠ r.generation)
    (dated : ∀ slot, r.slot = some slot → slot.generation = r.generation) (now : Instant) :
    ∃ phase, r.step now link = ({ r with phase }, link) ∧
      (phase = .ready ∨ phase.generation? = some g) := by
  obtain ⟨phase, link', stepped, same | ⟨cursor, asked⟩, later⟩ :=
    step_superseded busy older dated now link
  · exact ⟨phase, same ▸ stepped, later⟩
  · rw [reliable.tryNext_eq] at asked
    have same : link' = link := asked
    exact ⟨phase, same ▸ stepped, later⟩

end Reader

end TraceJournal
