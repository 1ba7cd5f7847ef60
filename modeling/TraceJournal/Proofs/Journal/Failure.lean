import TraceJournal.Proofs.Journal.Course

/-!
# A cursor that has failed

Once the cursor of a generation has failed, the worker waits, and then moves the reader. As long as
no such move fails, nothing that the cursor could still find comes into the buffer: all that comes
is of later generations, and the reader recovers until it has been moved. When the move fails, the
worker takes the reader's slot again, and with it the cursor that has failed.
-/

namespace TraceJournal

open scoped List

/-- The worker has left the cursor of a slot: it is about to wait or waits, and unless the reader
was moved it recovers and still has that slot, or the worker is busy with later generations only. -/
inductive Reader.Leaves (slot : Slot) (r : Reader) : Prop where
  | failed : r.phase = .broken slot → Leaves slot r
  | waits : r.phase = .waiting slot.generation →
    (r.generation = slot.generation → r.slot = some slot ∧ r.state = .recovering) → Leaves slot r
  | moved : slot.generation < r.generation →
    (∀ g, r.phase.generation? = some g → slot.generation < g) → Leaves slot r

/-- The wait of the present generation is over, no cursor can be opened, and the worker goes on with
the slot that the reader has. -/
structure Course.ResyncFails (generation : Nat) (now : Instant) (s : Course) : Prop where
  waiting : s.reader.phase = .waiting generation
  current : s.reader.generation = generation
  unopened : ∃ e, (Reader.openCursor (.after now) s.link).1 = .error e
  goes_on : (s.next (.work now)).reader = { s.reader with phase := .ready }

/-- During some actions nothing that the cursor of a slot found comes into the buffer. As long as
the reader is not moved, it keeps the slot, and the worker is about to wait, or waits while the
reader recovers. -/
structure Course.RestsDuring (slot : Slot) (s : Course) (actions : List Action) : Prop where
  pushed : ∀ p ∈ s.pushed actions, slot.generation < p.1
  unmoved : (s.run actions).reader.generation = slot.generation →
    (s.run actions).reader.slot = some slot ∧
      ((s.run actions).reader.phase = .broken slot ∨
        (s.run actions).reader.phase = .waiting slot.generation ∧
          (s.run actions).reader.state = .recovering)

namespace Reader.Leaves

variable {r : Reader} {slot : Slot}

/-- Moving the reader does not bring the worker back to the cursor. -/
theorem moveTo (h : r.Leaves slot) (dated : r.Dated) (time : Option Instant) (now : Instant)
    (link : Link) : (r.moveTo time now link).2.1.Leaves slot := by
  rcases reader_moveTo time now r link with same | ⟨cursor, moved⟩
  · rw [same]
    exact h
  · rw [moved]
    cases h with
    | failed hp => exact .failed hp
    | waits hp _ =>
      refine .waits hp ?_
      intro current
      have le := dated.phase_le slot.generation (by rw [hp]; rfl)
      simp only [repositioned] at current
      omega
    | moved later busy => exact .moved (Nat.lt_succ_of_lt later) busy

/-- Fetching and closing change nothing that counts here. -/
theorem congr (h : r.Leaves slot) {r' : Reader} (phase : r'.phase = r.phase)
    (generation : r'.generation = r.generation) (same : r'.slot = r.slot)
    (state : r'.state = r.state) : r'.Leaves slot := by
  cases h with
  | failed hp => exact .failed (phase.trans hp)
  | waits hp recovering =>
    rw [← generation, ← same, ← state] at recovering
    exact .waits (phase.trans hp) recovering
  | moved later busy =>
    rw [← generation] at later
    rw [← phase] at busy
    exact .moved later busy

/-- A worker that is busy with a later generation only takes up that of the reader, which is not
older. -/
theorem step_moved (later : slot.generation < r.generation)
    (busy : ∀ g, r.phase.generation? = some g → slot.generation < g) (dated : r.Dated)
    (now : Instant) (link : Link) : (r.step now link).1.Leaves slot := by
  have ready {r' : Reader} (h : slot.generation < r'.generation) (hp : r'.phase = .ready) :
      r'.Leaves slot := by
    refine .moved h ?_
    rw [hp]
    intro g hg
    cases hg
  have stepped := r.stepped now link
  generalize r.step now link = answer at stepped ⊢
  cases stepped with
  | off | unplaced => exact .moved later busy
  | takes hp hs =>
    refine .moved later ?_
    intro g hg
    cases hg
    rw [dated.slot_eq _ hs]
    exact later
  | turns hp =>
    rw [hp] at busy
    exact .moved later busy
  | finds hp | findsNothing hp | fails hp =>
    rw [hp] at busy
    exact .moved (by simpa only [generation_keepCursor] using later) busy
  | notes hp | gives hp =>
    rw [hp] at busy
    exact .moved (by simpa only [generation_mark] using later) busy
  | rests => exact ready (by simpa only [generation_mark] using later) rfl
  | keeps =>
    refine ready ?_ rfl
    simp only [push]
    split <;> exact later
  | resyncs => exact ready (Nat.lt_succ_of_lt later) rfl
  | _ => exact ready later rfl

/-- The worker begins to wait. -/
theorem step_failed (hp : r.phase = .broken slot) (held : r.Held) (now : Instant) (link : Link) :
    (r.step now link).1.Leaves slot := by
  have stepped := r.stepped now link
  generalize r.step now link = answer at stepped ⊢
  cases stepped with
  | off => exact .failed hp
  | gives hp' =>
    rw [hp] at hp'
    cases hp'
    refine .waits rfl ?_
    simp only [generation_mark, slot_mark]
    intro current
    refine ⟨held slot (by rw [hp]; rfl) current.symm, ?_⟩
    rw [mark, if_pos current]
  | unplaced hp' | takes hp' | pauses hp' | turns hp' | finds hp' | findsNothing hp' | fails hp'
  | notes hp' | drops hp' | keeps hp' | rests hp' | superseded hp' | stays hp' | resyncs hp' =>
    rw [hp] at hp'
    cases hp'

/-- The wait ends with a move to a later generation, unless that fails. -/
theorem step_waits {s : Course} (hp : s.reader.phase = .waiting slot.generation)
    (recovering : s.reader.generation = slot.generation →
      s.reader.slot = some slot ∧ s.reader.state = .recovering)
    (dated : s.reader.Dated) (now : Instant) :
    (s.next (.work now)).reader.Leaves slot ∨ s.ResyncFails slot.generation now := by
  have free : ∀ g, Phase.ready.generation? = some g → slot.generation < g := by
    intro g hg
    cases hg
  have stepped := s.reader.stepped now s.link
  have goes_on : (s.next (.work now)).reader = (s.reader.step now s.link).1 := rfl
  rw [goes_on]
  generalize answered : s.reader.step now s.link = answer at stepped ⊢
  cases stepped with
  | off => exact .inl (.waits hp recovering)
  | superseded hp' other =>
    rw [hp] at hp'
    cases hp'
    have le := dated.phase_le slot.generation (by rw [hp]; rfl)
    exact .inl (.moved (Nat.lt_of_le_of_ne le (Ne.symm other)) free)
  | stays hp' unopened =>
    rw [hp] at hp'
    refine .inr ⟨hp, (Phase.waiting.inj hp').symm, ⟨_, congrArg (·.1) unopened⟩, ?_⟩
    rw [goes_on, answered]
  | resyncs hp' =>
    rw [hp] at hp'
    refine .inl (.moved ?_ free)
    rw [Phase.waiting.inj hp']
    exact Nat.lt_succ_self _
  | unplaced hp' | takes hp' | pauses hp' | turns hp' | finds hp' | findsNothing hp' | fails hp'
  | notes hp' | drops hp' | keeps hp' | rests hp' | gives hp' =>
    rw [hp] at hp'
    cases hp'

/-- What an action puts into the buffer is of a later generation. -/
theorem lt_of_mem_pushedBy {s : Course} (h : s.reader.Leaves slot) {action : Course.Action}
    {p : Nat × Record} (hp : p ∈ s.pushedBy action) : slot.generation < p.1 := by
  obtain ⟨other, d, keeping, generation⟩ := Course.keeping_of_mem_pushedBy hp
  rw [generation]
  cases h with
  | failed broken =>
    rw [keeping] at broken
    cases broken
  | waits waiting _ =>
    rw [keeping] at waiting
    cases waiting
  | moved later busy => exact busy _ (by rw [keeping]; rfl)

/-- Whatever happens, the cursor stays left, unless a move after a wait fails. -/
theorem next {s : Course} (h : s.reader.Leaves slot) (reached : s.reader.Reached)
    (action : Course.Action) :
    (s.next action).reader.Leaves slot ∨
      ∃ now, action = .work now ∧ s.ResyncFails slot.generation now := by
  cases action with
  | insert d => exact .inl h
  | disturb failures poison => exact .inl h
  | move time now => exact .inl (h.moveTo reached.dated time now s.link)
  | fetch before =>
    left
    refine h.congr ?_ ?_ ?_ ?_
    all_goals
      simp only [Course.next, Reader.fetch]
      split
      · split <;> rfl
      · rfl
  | close => exact .inl (h.congr rfl rfl rfl rfl)
  | work now =>
    cases h with
    | failed hp => exact .inl (step_failed hp reached.held now s.link)
    | waits hp recovering =>
      rcases step_waits hp recovering reached.dated now with left' | fails
      · exact .inl left'
      · exact .inr ⟨now, rfl, fails⟩
    | moved later busy => exact .inl (step_moved later busy reached.dated now s.link)

theorem unmoved (h : r.Leaves slot) (held : r.Held) (current : r.generation = slot.generation) :
    r.slot = some slot ∧
      (r.phase = .broken slot ∨ r.phase = .waiting slot.generation ∧ r.state = .recovering) := by
  cases h with
  | failed hp => exact ⟨held slot (by rw [hp]; rfl) current.symm, .inl hp⟩
  | waits hp recovering =>
    obtain ⟨same, state⟩ := recovering current
    exact ⟨same, .inr ⟨hp, state⟩⟩
  | moved later busy => omega

theorem rests_nil {s : Course} (h : s.reader.Leaves slot) (held : s.reader.Held) :
    s.RestsDuring slot [] := by
  refine ⟨?_, h.unmoved held⟩
  intro p hp
  cases hp

/-- The cursor rests as long as no move after a wait fails. -/
theorem rests {s : Course} (h : s.reader.Leaves slot) (reached : s.reader.Reached)
    (actions : List Course.Action) :
    s.RestsDuring slot actions ∨ ∃ earlier now later, actions = earlier ++ .work now :: later ∧
      s.RestsDuring slot earlier ∧ (s.run earlier).ResyncFails slot.generation now := by
  induction actions generalizing s with
  | nil => exact .inl (h.rests_nil reached.held)
  | cons action rest ih =>
    have first {others : List Course.Action} (more : (s.next action).RestsDuring slot others) :
        s.RestsDuring slot (action :: others) := by
      refine ⟨?_, more.unmoved⟩
      intro p hp
      rcases List.mem_append.mp hp with now | later
      · exact h.lt_of_mem_pushedBy now
      · exact more.pushed p later
    rcases h.next reached action with kept | ⟨now, rfl, fails⟩
    · rcases ih kept (Course.reached_next reached action) with
        more | ⟨earlier, now, later, rfl, more, fails⟩
      · exact .inl (first more)
      · exact .inr ⟨action :: earlier, now, later, rfl, first more, fails⟩
    · exact .inr ⟨[], now, rest, rfl, h.rests_nil reached.held, fails⟩

end Reader.Leaves

/-- When the cursor of a slot has just failed, whatever happens then, over however unreliable a
link: all that is fetched, and what is in the buffer at last, was in the buffer at the failure or
came into it since; and nothing of that was found by the cursor that failed, but all by cursors of
later moves, and until the next move the worker is about to wait, or waits while the reader
recovers. It is so up to the end, or up to the first move after the wait that fails: then the worker
goes on with the slot that has failed. -/
theorem Reader.failed_cursor_rests {s : Course} {slot : Slot} {actions : List Course.Action}
    (reached : s.reader.Reached) (failed : s.reader.phase = .broken slot) :
    s.fetched actions ++ (s.run actions).reader.buffer <+~
        s.reader.buffer ++ (s.pushed actions).map (·.2) ∧
      (s.RestsDuring slot actions ∨ ∃ earlier now later, actions = earlier ++ .work now :: later ∧
        s.RestsDuring slot earlier ∧ (s.run earlier).ResyncFails slot.generation now) :=
  ⟨s.conserved actions, (Leaves.failed failed).rests reached actions⟩

/-- The cursor fails once, and so does the opening of another one after the wait: the record that is
stored meanwhile is found by the cursor that failed, and fetched. -/
theorem Reader.failed_cursor_rests_until_resync_fails :
    let t : Instant := ⟨0, 0, by decide, by decide, by decide, by decide⟩
    let e : Record := .atTime t "shop" "Orders" "placed" []
    let failures (call : Call) : Nat := if call = .tryNext ∨ call = .tailFrom then 1 else 0
    let s : Course := Course.run ⟨.create 2 true, .reliable (.memory .unbounded)⟩
      [.move (some t) t, .disturb failures fun _ => false, .work t, .work t, .work t]
    let actions : List Course.Action :=
      .insert (.ofRecord e) :: List.replicate 12 (.work t) ++ [.fetch none]
    ∃ slot, s.reader.Reached ∧ s.reader.phase = .broken slot ∧
      s.pushed actions = [(slot.generation, e)] ∧ s.fetched actions = [e] ∧
      ∃ earlier now later, actions = earlier ++ .work now :: later ∧
        s.RestsDuring slot earlier ∧ (s.run earlier).ResyncFails slot.generation now := by
  intro t e failures s actions
  have reached : s.reader.Reached := Course.reached_run (.create 2 true) _
  obtain ⟨slot, failed, first⟩ : ∃ slot, s.reader.phase = .broken slot ∧ slot.generation = 1 :=
    ⟨_, rfl, rfl⟩
  have pushed : s.pushed actions = [(slot.generation, e)] := by
    rw [first]
    decide +kernel
  have fetched : s.fetched actions = [e] := by decide +kernel
  refine ⟨slot, reached, failed, pushed, fetched, ?_⟩
  have outcome : s.RestsDuring slot actions ∨ ∃ earlier now later,
      actions = earlier ++ .work now :: later ∧ s.RestsDuring slot earlier ∧
        (s.run earlier).ResyncFails slot.generation now :=
    (failed_cursor_rests reached failed).2
  rcases outcome with rests | fails
  · have found : (slot.generation, e) ∈ s.pushed actions := by
      rw [pushed]
      exact List.mem_singleton_self _
    have later := rests.pushed _ found
    omega
  · exact fails

end TraceJournal
