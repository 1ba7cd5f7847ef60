import TraceJournal.Journal.Reader

/-!
# What a phase of the worker comes to

Every phase of a reader's worker comes to one of a few steps, told apart by what the worker is busy
with and by what the link answers. Calls can fail here: a call that fails changes nothing but the
number of failures to come, and all that a reader itself ever stores is a sentinel.
-/

namespace TraceJournal

namespace Link

/-- A call fails, or is made. -/
theorem attempt_cases {α : Type} (call : Call) (action : Link → Except StoreError α × Link)
    (link : Link) :
    (∃ e n, attempt call action link = (.error e, link.arm call n)) ∨
      attempt call action link = action link := by
  unfold attempt
  split
  · exact .inr rfl
  · exact .inl ⟨_, _, rfl⟩

/-- A call that only reads changes nothing but the number of failures to come. -/
theorem attempt_keeps {α : Type} (call : Call) (answer : Link → Except StoreError α)
    (link : Link) :
    (attempt call (fun link => (answer link, link)) link).2.store = link.store ∧
      (attempt call (fun link => (answer link, link)) link).2.anchor = link.anchor := by
  rcases attempt_cases call (fun link => (answer link, link)) link with ⟨e, n, failed⟩ | made
  · rw [failed]
    exact ⟨rfl, rfl⟩
  · rw [made]
    exact ⟨rfl, rfl⟩

theorem existsFrom_keeps (source : Instant) (link : Link) :
    (link.existsFrom source).2.store = link.store ∧
      (link.existsFrom source).2.anchor = link.anchor :=
  attempt_keeps .existsFrom (·.store.existsFrom source) link

theorem tailFrom_keeps (source : Instant) (link : Link) :
    (link.tailFrom source).2.store = link.store ∧
      (link.tailFrom source).2.anchor = link.anchor :=
  attempt_keeps .tailFrom (·.store.tailFrom source) link

/-- What a call that only reads answers over a link is what the store answers, and the link stays as
it is. -/
theorem attempt_ok {α : Type} {call : Call} (answer : Link → Except StoreError α)
    {link link' : Link} {a : α}
    (h : attempt call (fun link => (answer link, link)) link = (.ok a, link')) :
    answer link = .ok a ∧ link' = link := by
  rcases attempt_cases call (fun link => (answer link, link)) link with ⟨e, n, failed⟩ | made
  · rw [failed] at h
    cases h
  · rw [made] at h
    obtain ⟨answered, rfl⟩ := Prod.mk.inj h
    exact ⟨answered, rfl⟩

theorem existsFrom_ok {source : Instant} {link link' : Link} {found : Bool}
    (h : link.existsFrom source = (.ok found, link')) :
    link.store.existsFrom source = .ok found ∧ link' = link :=
  attempt_ok (·.store.existsFrom source) h

/-- A cursor that is opened over a link is opened on the store. -/
theorem tailFrom_ok {source : Instant} {link link' : Link} {cursor : Cursor}
    (h : link.tailFrom source = (.ok cursor, link')) :
    link'.store.tailFrom source = .ok cursor := by
  obtain ⟨opened, rfl⟩ := attempt_ok (·.store.tailFrom source) h
  exact opened

theorem serialize_keeps (r : Record) (link : Link) :
    (link.serialize r).2.store = link.store ∧ (link.serialize r).2.anchor = link.anchor :=
  attempt_keeps .serialize (fun _ => .ok (Document.ofRecord r)) link

/-- The document that is made of a record is the one that keeps it. -/
theorem serialize_ok {r : Record} {link link' : Link} {d : Document}
    (h : link.serialize r = (.ok d, link')) : d = .ofRecord r ∧ link' = link := by
  obtain ⟨made, rfl⟩ := attempt_ok (fun _ => .ok (Document.ofRecord r)) h
  exact ⟨(Except.ok.inj made).symm, rfl⟩

/-- An insertion that fails on the way changes nothing of the store. -/
theorem insert_cases (d : Document) (link : Link) :
    (∃ e n, link.insert d = (.error e, link.arm .insert n)) ∨
      link.insert d = ((link.store.insert d).1, { link with store := (link.store.insert d).2 }) :=
  attempt_cases .insert _ link

/-- An insertion changes nothing of a link but the number of failures to come, or else only what
the store makes of it. -/
theorem insert_keeps (d : Document) (link : Link) :
    (link.insert d).2.anchor = link.anchor ∧
      ((link.insert d).2.store = link.store ∨
        (link.insert d).2.store = (link.store.insert d).2) := by
  rcases link.insert_cases d with ⟨e, n, failed⟩ | made
  · rw [failed]
    exact ⟨rfl, .inl rfl⟩
  · rw [made]
    exact ⟨rfl, .inr rfl⟩

/-- What asking a cursor over a link comes to. -/
inductive Asked (cursor : Cursor) (link : Link) :
    Except StoreError (Option Document) × Cursor × Link → Prop where
  /-- The call fails before it reaches the cursor. -/
  | unreached {e : StoreError} {n : Nat} : Asked cursor link (.error e, cursor, link.arm .tryNext n)
  /-- The cursor passes over a document that it cannot take. -/
  | poisoned {e : StoreError} {d : Document} :
    (cursor.tryNext link.store).1 = .ok (some d) →
      Asked cursor link (.error e, (cursor.tryNext link.store).2, link)
  /-- The cursor answers. -/
  | answered :
    Asked cursor link ((cursor.tryNext link.store).1, (cursor.tryNext link.store).2, link)

theorem asked (cursor : Cursor) (link : Link) : link.Asked cursor (link.tryNext cursor) := by
  unfold tryNext
  split
  · exact .unreached
  · next made =>
    simp only
    split
    · next d found =>
      split
      · exact .poisoned found
      · rw [← found]
        exact .answered
    · exact .answered

theorem Asked.keeps {cursor : Cursor} {link : Link}
    {answer : Except StoreError (Option Document) × Cursor × Link} (h : link.Asked cursor answer) :
    answer.2.2.store = link.store ∧ answer.2.2.anchor = link.anchor := by
  cases h <;> exact ⟨rfl, rfl⟩

end Link

/-! ## Opening a cursor -/

namespace Reader

/-- The document that a reader stores where a cursor at a checkpoint needs an anchor. -/
def anchor (checkpoint : Checkpoint) : Document := .ofRecord (.sentinel checkpoint.time)

/-- What opening a cursor comes to. -/
inductive Opened (checkpoint : Checkpoint) (link : Link) :
    Except StoreError Cursor × Link → Prop where
  /-- A cursor needs no anchor. -/
  | free : link.requiresAnchor = false → Opened checkpoint link (link.tailFrom checkpoint.time)
  /-- It cannot be told whether a document matches. -/
  | blind {e : StoreError} {link' : Link} :
    link.existsFrom checkpoint.time = (.error e, link') → Opened checkpoint link (.error e, link')
  /-- A document matches. -/
  | met :
    link.existsFrom checkpoint.time = (.ok true, link) →
      Opened checkpoint link (link.tailFrom checkpoint.time)
  /-- No document can be made of the sentinel. -/
  | unmade {e : StoreError} {link' : Link} :
    link.serialize (.sentinel checkpoint.time) = (.error e, link') →
      Opened checkpoint link (.error e, link')
  /-- The store does not take the sentinel. -/
  | refused {e : StoreError} {link' : Link} :
    link.requiresAnchor = true → link.existsFrom checkpoint.time = (.ok false, link) →
      link.insert (anchor checkpoint) = (.error e, link') → Opened checkpoint link (.error e, link')
  /-- The sentinel is stored. -/
  | anchored {link' : Link} :
    link.requiresAnchor = true → link.existsFrom checkpoint.time = (.ok false, link) →
      link.insert (anchor checkpoint) = (.ok (), link') →
      Opened checkpoint link (link'.tailFrom checkpoint.time)

theorem opened (checkpoint : Checkpoint) (link : Link) :
    Opened checkpoint link (openCursor checkpoint link) := by
  unfold openCursor
  split
  · next required =>
    split
    · next seen => exact .blind seen
    · next link₁ seen =>
      obtain ⟨-, rfl⟩ := Link.existsFrom_ok seen
      exact .met seen
    · next link₁ seen =>
      obtain ⟨-, rfl⟩ := Link.existsFrom_ok seen
      split
      · next failed => exact .unmade failed
      · next sentinel link' made =>
        obtain ⟨rfl, rfl⟩ := Link.serialize_ok made
        split
        · next refused => exact .refused required seen refused
        · next stored => exact .anchored required seen stored
  · next free => exact .free (eq_false_of_ne_true free)

/-- A cursor is opened on the store as the link leaves it. -/
theorem tailFrom_of_openCursor {checkpoint : Checkpoint} {link link' : Link} {cursor : Cursor}
    (h : openCursor checkpoint link = (.ok cursor, link')) :
    link'.store.tailFrom checkpoint.time = .ok cursor := by
  have all := opened checkpoint link
  generalize openCursor checkpoint link = answer at all h
  cases all with
  | free | met | anchored => exact Link.tailFrom_ok h
  | blind | unmade | refused => cases h

/-- Opening a cursor stores at most a sentinel, and that only where a cursor needs an anchor. -/
theorem openCursor_keeps (checkpoint : Checkpoint) (link : Link) :
    (openCursor checkpoint link).2.anchor = link.anchor ∧
      ((openCursor checkpoint link).2.store = link.store ∨ link.requiresAnchor = true ∧
        (openCursor checkpoint link).2.store =
          (link.store.insert (Document.ofRecord (Record.sentinel checkpoint.time))).2) := by
  have all := opened checkpoint link
  generalize openCursor checkpoint link = answer at all ⊢
  have direct := Link.tailFrom_keeps checkpoint.time link
  cases all with
  | free | met => exact ⟨direct.2, .inl direct.1⟩
  | blind seen =>
    have looked := Link.existsFrom_keeps checkpoint.time link
    rw [seen] at looked
    exact ⟨looked.2, .inl looked.1⟩
  | unmade failed =>
    have kept := Link.serialize_keeps (.sentinel checkpoint.time) link
    rw [failed] at kept
    exact ⟨kept.2, .inl kept.1⟩
  | refused required _ failed =>
    have kept := Link.insert_keeps (anchor checkpoint) link
    rw [failed] at kept
    exact ⟨kept.1, kept.2.imp_right (⟨required, ·⟩)⟩
  | anchored required _ made =>
    have kept := Link.insert_keeps (anchor checkpoint) link
    rw [made] at kept
    have tail := Link.tailFrom_keeps checkpoint.time
    refine ⟨(tail _).2.trans kept.1, kept.2.imp ((tail _).1.trans ·) fun stored => ?_⟩
    exact ⟨required, (tail _).1.trans stored⟩

/-- The reader in the next generation, with an empty buffer and the slot of a cursor that was just
opened. -/
def repositioned (checkpoint : Checkpoint) (cursor : Cursor) (r : Reader) : Reader :=
  { r with
    generation := r.generation + 1
    state := .positioned
    buffer := []
    slot := some ⟨r.generation + 1, checkpoint, cursor⟩ }

theorem openAt_of_ok {checkpoint : Checkpoint} {link link' : Link} {cursor : Cursor} (r : Reader)
    (h : openCursor checkpoint link = (.ok cursor, link')) :
    r.openAt checkpoint link = (.ok checkpoint, r.repositioned checkpoint cursor, link') := by
  unfold openAt
  rw [h]
  rfl

theorem openAt_of_error {checkpoint : Checkpoint} {link link' : Link} {e : StoreError} (r : Reader)
    (h : openCursor checkpoint link = (.error e, link')) :
    r.openAt checkpoint link = (.error e, r, link') := by
  unfold openAt
  rw [h]

/-- What moving a reader comes to: either a cursor was opened, or the reader stays as it is. -/
theorem moveTo_cases (time : Option Instant) (now : Instant) (r : Reader) (link : Link) :
    (∃ cursor link', openCursor (target time now) link = (.ok cursor, link') ∧
      r.moveTo time now link =
        (.ok (target time now), r.repositioned (target time now) cursor, link')) ∨
      (r.moveTo time now link).2.1 = r ∧ ((r.moveTo time now link).2.2 = link ∨
        (r.moveTo time now link).2.2 = (openCursor (target time now) link).2) ∧
        (r.enabled = true → ∃ e, (r.moveTo time now link).1 = .error e) := by
  unfold moveTo
  by_cases on : r.enabled = true
  · rw [if_pos on]
    cases ho : openCursor (target time now) link with
    | mk result link' =>
      cases result with
      | error e =>
        right
        rw [r.openAt_of_error ho]
        exact ⟨rfl, .inr rfl, fun _ => ⟨_, rfl⟩⟩
      | ok cursor =>
        left
        rw [r.openAt_of_ok ho]
        exact ⟨cursor, link', rfl, rfl⟩
  · rw [if_neg on]
    exact .inr ⟨rfl, .inl rfl, fun on' => absurd on' on⟩

/-- A move that succeeds has opened a cursor at the checkpoint that it was to be moved to. -/
theorem opened_of_moveTo {r r' : Reader} {link link' : Link} {time : Option Instant}
    {now : Instant} {c : Checkpoint} (on : r.enabled = true)
    (moved : r.moveTo time now link = (.ok c, r', link')) :
    c = target time now ∧
      ∃ cursor, openCursor c link = (.ok cursor, link') ∧ r' = r.repositioned c cursor := by
  rcases moveTo_cases time now r link with ⟨cursor, link₁, opened, all⟩ | ⟨-, -, fails⟩
  · rw [moved] at all
    cases all
    exact ⟨rfl, cursor, opened, rfl⟩
  · obtain ⟨e, failed⟩ := fails on
    rw [moved] at failed
    cases failed

theorem exists_openCursor {r r' : Reader} {link link' : Link} {time : Option Instant}
    {now : Instant} {c : Checkpoint} (on : r.enabled = true)
    (moved : r.moveTo time now link = (.ok c, r', link')) :
    ∃ cursor, openCursor c link = (.ok cursor, link') ∧ r' = r.repositioned c cursor :=
  (opened_of_moveTo on moved).2

/-- Moving leaves a reader as it is, or repositions it. -/
theorem reader_moveTo (time : Option Instant) (now : Instant) (r : Reader) (link : Link) :
    (r.moveTo time now link).2.1 = r ∨
      ∃ cursor, (r.moveTo time now link).2.1 = r.repositioned (target time now) cursor := by
  rcases moveTo_cases time now r link with ⟨cursor, link', -, moved⟩ | ⟨same, -, -⟩
  · right
    rw [moved]
    exact ⟨cursor, rfl⟩
  · left
    exact same

/-! ## Phases -/

/-- Keeping a cursor changes nothing of a reader but its slot. -/
theorem exists_keepCursor (slot : Slot) (r : Reader) :
    ∃ slot', r.keepCursor slot = { r with slot := slot' } := by
  unfold keepCursor
  split
  · split
    · exact ⟨_, rfl⟩
    · exact ⟨r.slot, rfl⟩
  · exact ⟨r.slot, rfl⟩

/-- Marking changes nothing but the state. -/
theorem exists_mark (generation : Nat) (state : ReaderState) (r : Reader) :
    ∃ state', r.mark generation state = { r with state := state' } := by
  unfold mark
  split
  · exact ⟨_, rfl⟩
  · exact ⟨r.state, rfl⟩

/-- Pushing changes nothing but the buffer. -/
theorem exists_push (generation : Nat) (record : Record) (r : Reader) :
    ∃ buffer, r.push generation record = { r with buffer } := by
  unfold push
  split
  · exact ⟨_, rfl⟩
  · exact ⟨r.buffer, rfl⟩

/-- What a phase of the worker comes to. -/
inductive Stepped (now : Instant) (r : Reader) (link : Link) : Reader × Link → Prop where
  /-- The worker has stopped, or there never was one. -/
  | off : (r.closed || !r.enabled) = true → Stepped now r link (r, link)
  | unplaced : r.phase = .ready → r.slot = none → Stepped now r link (r, link)
  | takes {slot : Slot} :
    r.phase = .ready → r.slot = some slot →
      Stepped now r link ({ r with phase := .holding slot }, link)
  | pauses {slot : Slot} :
    r.phase = .holding slot → r.isFull = true →
      Stepped now r link ({ r with phase := .ready }, link)
  | turns {slot : Slot} :
    r.phase = .holding slot → r.isFull = false →
      Stepped now r link ({ r with phase := .asking slot }, link)
  | finds {slot : Slot} {d : Document} {cursor : Cursor} {link' : Link} :
    r.phase = .asking slot → link.tryNext slot.cursor = (.ok (some d), cursor, link') →
      Stepped now r link
        ({ r.keepCursor { slot with cursor } with phase := .arrived { slot with cursor } d }, link')
  | findsNothing {slot : Slot} {cursor : Cursor} {link' : Link} :
    r.phase = .asking slot → link.tryNext slot.cursor = (.ok none, cursor, link') →
      Stepped now r link
        ({ r.keepCursor { slot with cursor } with phase := .exhausted { slot with cursor } }, link')
  | fails {slot : Slot} {e : StoreError} {cursor : Cursor} {link' : Link} :
    r.phase = .asking slot → link.tryNext slot.cursor = (.error e, cursor, link') →
      Stepped now r link
        ({ r.keepCursor { slot with cursor } with phase := .broken { slot with cursor } }, link')
  | notes {slot : Slot} {d : Document} :
    r.phase = .arrived slot d →
      Stepped now r link
        ({ r.mark slot.generation .streaming with phase := .keeping slot d }, link)
  | drops {slot : Slot} {d : Document} :
    r.phase = .keeping slot d → admitted? slot.checkpoint d = none →
      Stepped now r link ({ r with phase := .ready }, link)
  | keeps {slot : Slot} {d : Document} {record : Record} :
    r.phase = .keeping slot d → admitted? slot.checkpoint d = some record →
      Stepped now r link ({ r.push slot.generation record with phase := .ready }, link)
  | rests {slot : Slot} :
    r.phase = .exhausted slot →
      Stepped now r link ({ r.mark slot.generation .streaming with phase := .ready }, link)
  | gives {slot : Slot} :
    r.phase = .broken slot →
      Stepped now r link
        ({ r.mark slot.generation .recovering with phase := .waiting slot.generation }, link)
  /-- The reader was moved during the wait. -/
  | superseded {generation : Nat} :
    r.phase = .waiting generation → r.generation ≠ generation →
      Stepped now r link ({ r with phase := .ready }, link)
  /-- No cursor can be opened after the wait. -/
  | stays {e : StoreError} {link' : Link} :
    r.phase = .waiting r.generation → openCursor (.after now) link = (.error e, link') →
      Stepped now r link ({ r with phase := .ready }, link')
  | resyncs {cursor : Cursor} {link' : Link} :
    r.phase = .waiting r.generation → openCursor (.after now) link = (.ok cursor, link') →
      Stepped now r link
        ({ r.repositioned (.after now) cursor with
            recoveries := r.recoveries + 1
            phase := .ready }, link')

theorem stepped (now : Instant) (r : Reader) (link : Link) :
    Stepped now r link (r.step now link) := by
  by_cases off : (r.closed || !r.enabled) = true
  · rw [step, if_pos off]
    exact .off off
  · rw [step, if_neg off]
    cases hp : r.phase with
    | ready =>
      simp only
      split
      · next hs => exact .unplaced hp hs
      · next slot hs => exact .takes hp hs
    | holding slot =>
      cases hf : r.isFull with
      | true => exact .pauses hp hf
      | false => exact .turns hp hf
    | asking slot =>
      cases answer : link.tryNext slot.cursor with
      | mk result more =>
        obtain ⟨cursor, link'⟩ := more
        simp only [answer]
        rcases result with e | (_ | d)
        · exact .fails hp answer
        · exact .findsNothing hp answer
        · exact .finds hp answer
    | arrived slot d => exact .notes hp
    | keeping slot d =>
      simp only
      cases ha : admitted? slot.checkpoint d with
      | none => exact .drops hp ha
      | some record => exact .keeps hp ha
    | exhausted slot => exact .rests hp
    | broken slot => exact .gives hp
    | waiting generation =>
      simp only [resync]
      by_cases same : r.generation = generation
      · subst same
        rw [if_pos rfl]
        cases ho : openCursor (.after now) link with
        | mk result link' =>
          cases result with
          | error e =>
            rw [r.openAt_of_error ho]
            exact .stays hp ho
          | ok cursor =>
            rw [r.openAt_of_ok ho]
            exact .resyncs hp ho
      · rw [if_neg same]
        exact .superseded hp same

/-- A phase of the worker neither closes nor disables a reader, and leaves the bound of its buffer
as it is. -/
theorem fixed_step (now : Instant) (r : Reader) (link : Link) :
    (r.step now link).1.enabled = r.enabled ∧ (r.step now link).1.closed = r.closed ∧
      (r.step now link).1.capacity = r.capacity := by
  have stepped := r.stepped now link
  generalize r.step now link = answer at stepped ⊢
  cases stepped with
  | @finds slot _ cursor | @findsNothing slot cursor | @fails slot _ cursor =>
    obtain ⟨slot', kept⟩ := r.exists_keepCursor { slot with cursor }
    rw [kept]
    exact ⟨rfl, rfl, rfl⟩
  | @notes slot | @rests slot =>
    obtain ⟨state, marked⟩ := r.exists_mark slot.generation .streaming
    rw [marked]
    exact ⟨rfl, rfl, rfl⟩
  | @gives slot =>
    obtain ⟨state, marked⟩ := r.exists_mark slot.generation .recovering
    rw [marked]
    exact ⟨rfl, rfl, rfl⟩
  | @keeps slot _ record =>
    obtain ⟨buffer, pushed⟩ := r.exists_push slot.generation record
    rw [pushed]
    exact ⟨rfl, rfl, rfl⟩
  | _ => exact ⟨rfl, rfl, rfl⟩

end Reader

end TraceJournal
