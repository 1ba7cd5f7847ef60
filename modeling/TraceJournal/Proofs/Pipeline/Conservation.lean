import TraceJournal.Proofs.Pipeline.Traffic

/-!
# No record gets lost in a pipeline

Whatever happens to a pipeline, the records that came into its queue are those taken for delivery
and those still waiting, in one order; and each record emitted while it was enabled is delivered,
waits, is being delivered, or has been counted as lost.
-/

namespace TraceJournal

/-! ## The dispatcher comes to rest -/

namespace Pipeline

/-- At least as many steps as the dispatcher has to do until no record is left: one for each handler
of each record, and two more for each record. -/
def owed (p : Pipeline) : Nat :=
  (p.delivery?.elim 0 fun d => d.remaining.length + 1) +
    p.pending * (p.registry.handlers.length + 2)

/-- A dispatcher is at work and has not been cancelled. -/
def isWorking (p : Pipeline) : Prop := ∃ delivery, p.dispatcher = some ⟨false, delivery⟩

/-- No record waits, and none is being delivered. -/
def isIdle (p : Pipeline) : Prop := p.queue.items = [] ∧ p.delivery? = none

theorem isWorking_enable (p : Pipeline) : (p.enable true).isWorking := by
  cases hd : p.dispatcher with
  | none => exact ⟨none, by simp [enable, hd]⟩
  | some d => exact ⟨d.delivery, by simp [enable, hd]⟩

theorem isIdle_of_owed {p : Pipeline} (none_owed : p.owed = 0) : p.isIdle := by
  unfold owed at none_owed
  cases hd : p.delivery? with
  | none =>
    refine ⟨List.eq_nil_of_length_eq_zero ?_, hd⟩
    have := Nat.eq_zero_of_add_eq_zero_left none_owed
    rcases Nat.mul_eq_zero.mp this with h | h
    · exact h
    · omega
  | some d => simp [hd] at none_owed

/-- A step brings a dispatcher that is at work nearer to its rest. -/
theorem owed_work {p : Pipeline} (working : p.isWorking) (ends failed : Bool) :
    (p.work ends failed).isWorking ∧ (p.work ends failed).owed ≤ p.owed - 1 := by
  obtain ⟨delivery, hd⟩ := working
  have worked := p.worked ends failed
  generalize p.work ends failed = q at worked ⊢
  cases worked with
  | rests _ waits =>
    refine ⟨⟨delivery, hd⟩, ?_⟩
    rcases waits with ended | ⟨waits, empty⟩
    · rw [hd] at ended
      contradiction
    · have none_owed : p.owed = 0 := by simp [owed, delivery?, waits, pending, empty]
      omega
  | stops _ cancelled =>
    rw [hd] at cancelled
    injection cancelled with cancelled
    injection cancelled
    contradiction
  | takes _ free items _ =>
    rw [hd] at free
    cases free
    refine ⟨⟨_, rfl⟩, ?_⟩
    simp only [owed, delivery?, hd, pending, items, Option.bind_some, Option.elim_some,
      Option.elim_none, List.length_cons, Nat.succ_mul]
    omega
  | calls _ held remaining =>
    rw [hd] at held
    cases held
    refine ⟨⟨_, rfl⟩, ?_⟩
    simp only [owed, delivery?, hd, pending, remaining, Option.bind_some, Option.elim_some,
      List.length_cons]
    omega
  | finishes _ held remaining =>
    rw [hd] at held
    cases held
    refine ⟨⟨_, rfl⟩, ?_⟩
    simp only [owed, delivery?, hd, pending, remaining, Option.bind_some, Option.elim_some,
      Option.elim_none, List.length_nil]
    omega

/-- With an empty queue a step brings any dispatcher nearer to its rest. -/
theorem owed_work_of_empty {p : Pipeline} (empty : p.queue.items = []) (ends failed : Bool) :
    (p.work ends failed).queue.items = [] ∧ (p.work ends failed).owed ≤ p.owed - 1 := by
  have worked := p.worked ends failed
  generalize p.work ends failed = q at worked ⊢
  cases worked with
  | rests _ waits =>
    have none_owed : p.owed = 0 := by
      rcases waits with ended | ⟨waits, -⟩
      · simp [owed, delivery?, ended, pending, empty]
      · simp [owed, delivery?, waits, pending, empty]
    exact ⟨empty, by omega⟩
  | stops =>
    refine ⟨empty, ?_⟩
    simp [owed, delivery?, pending, empty]
  | takes _ _ items =>
    rw [empty] at items
    cases items
  | calls _ held remaining =>
    refine ⟨empty, ?_⟩
    simp only [owed, delivery?, held, pending, remaining, Option.bind_some, Option.elim_some,
      List.length_cons]
    omega
  | finishes _ held remaining =>
    refine ⟨empty, ?_⟩
    simp only [owed, delivery?, held, pending, remaining, Option.bind_some, Option.elim_some,
      Option.elim_none, List.length_nil]
    omega

end Pipeline

/-! ## The accounts -/

namespace Traffic

variable {s : Traffic}

/-- The accounts of a pipeline with room for so many records. -/
structure Conserved (room : Nat) (s : Traffic) : Prop where
  capacity_eq : s.pipeline.queue.capacity = room
  /-- The records that came into the queue are those taken and those that wait, in one order. -/
  accepted_eq : s.accepted = s.taken ++ s.pipeline.queue.items
  taken_eq : s.taken.length = s.pipeline.delivered + s.pipeline.delivery?.toList.length
  lost_eq : s.pipeline.loss.total = s.rejected.length
  emitted_eq : s.emitted.length = s.accepted.length + s.rejected.length

theorem Conserved.start (settings : PipelineSettings) (registry : Registry) :
    Conserved (max settings.queueCapacity.toNat 1) (.start settings registry) where
  capacity_eq := rfl
  accepted_eq := rfl
  taken_eq := rfl
  lost_eq := rfl
  emitted_eq := rfl

theorem Conserved.emit {room : Nat} (h : Conserved room s) (tracer : Tracer) (now : Instant)
    (method : String) (args : List Json) (elapsed : Nat) :
    Conserved room (s.next (.emit tracer now method args elapsed)) := by
  rcases s.next_emit tracer now method args elapsed with
    ⟨_, same⟩ | ⟨_, _, queue, items, capacity, after⟩ | ⟨_, _, after⟩
  · rw [same]
    exact h
  · rw [after]
    refine ⟨capacity.trans h.capacity_eq, ?_, h.taken_eq, h.lost_eq, ?_⟩
    · change s.accepted ++ _ = s.taken ++ queue.items
      rw [h.accepted_eq, items, List.append_assoc]
    · have := h.emitted_eq
      simp only [List.length_append, List.length_singleton]
      omega
  · rw [after]
    refine ⟨h.capacity_eq, h.accepted_eq, h.taken_eq, ?_, ?_⟩
    · simp only [LossMonitor.total_record, List.length_append, List.length_singleton, h.lost_eq]
    · have := h.emitted_eq
      simp only [List.length_append, List.length_singleton]
      omega

theorem Conserved.work {room : Nat} (h : Conserved room s) (ends : Bool)
    (error : Option HandlerError) : Conserved room (s.next (.work ends error)) := by
  have worked := s.pipeline.worked ends error.isSome
  simp only [next]
  generalize s.pipeline.work ends error.isSome = pipeline at worked ⊢
  cases worked with
  | rests next _ =>
    rw [next]
    exact h
  | stops next free =>
    rw [next]
    refine ⟨h.capacity_eq, h.accepted_eq, ?_, h.lost_eq, h.emitted_eq⟩
    simpa [taken, Pipeline.delivery?, free] using h.taken_eq
  | takes next free items capacity =>
    rw [next]
    refine ⟨capacity.trans h.capacity_eq, ?_, ?_, h.lost_eq, h.emitted_eq⟩
    · simpa [taken, items] using h.accepted_eq
    · simpa [taken, Pipeline.delivery?, free] using h.taken_eq
  | calls next held _ =>
    rw [next]
    refine ⟨h.capacity_eq, h.accepted_eq, ?_, h.lost_eq, h.emitted_eq⟩
    simpa [taken, Pipeline.delivery?, held] using h.taken_eq
  | finishes next held _ =>
    rw [next]
    refine ⟨h.capacity_eq, h.accepted_eq, ?_, h.lost_eq, h.emitted_eq⟩
    simpa [taken, Pipeline.delivery?, held] using h.taken_eq

theorem Conserved.next {room : Nat} (h : Conserved room s) (action : Action) :
    Conserved room (s.next action) := by
  cases action with
  | emit tracer now method args elapsed => exact h.emit tracer now method args elapsed
  | enable on =>
    by_cases stopping : s.pipeline.isStopping = true
    · simpa only [Traffic.next, if_pos stopping] using h
    · simp only [Traffic.next, if_neg stopping]
      exact ⟨h.capacity_eq, h.accepted_eq, by rw [Pipeline.delivery?_enable]; exact h.taken_eq,
        h.lost_eq, h.emitted_eq⟩
  | change c => exact ⟨h.capacity_eq, h.accepted_eq, h.taken_eq, h.lost_eq, h.emitted_eq⟩
  | work ends error => exact h.work ends error

theorem Conserved.run {room : Nat} (h : Conserved room s) (actions : List Action) :
    Conserved room (s.run actions) := by
  induction actions generalizing s with
  | nil => exact h
  | cons action rest ih => exact ih (h.next action)

/-- Each record emitted so far is delivered, waits, is lost, or is being delivered. -/
theorem Conserved.balance {room : Nat} (h : Conserved room s) :
    s.pipeline.delivered + s.pipeline.pending + s.pipeline.loss.total +
      s.pipeline.delivery?.toList.length = s.emitted.length := by
  have accepted := congrArg List.length h.accepted_eq
  rw [List.length_append, h.taken_eq] at accepted
  rw [h.emitted_eq, accepted, h.lost_eq]
  simp only [Pipeline.pending]
  omega

/-- What has been taken and what has been accepted only grows at its end. -/
theorem grows_next (s : Traffic) (action : Action) :
    s.taken <+: (s.next action).taken ∧ s.accepted <+: (s.next action).accepted := by
  cases action with
  | emit tracer now method args elapsed =>
    rcases s.next_emit tracer now method args elapsed with
      ⟨_, after⟩ | ⟨_, _, _, _, _, after⟩ | ⟨_, _, after⟩ <;> rw [after]
    · exact ⟨List.prefix_rfl, List.prefix_rfl⟩
    · exact ⟨List.prefix_rfl, List.prefix_append s.accepted _⟩
    · exact ⟨List.prefix_rfl, List.prefix_rfl⟩
  | enable on =>
    simp only [next]
    split <;> exact ⟨List.prefix_rfl, List.prefix_rfl⟩
  | change c => exact ⟨List.prefix_rfl, List.prefix_rfl⟩
  | work ends error =>
    simp only [next]
    split
    · refine ⟨?_, List.prefix_rfl⟩
      simp only [taken, List.map_append]
      exact List.prefix_append _ _
    · exact ⟨List.prefix_rfl, List.prefix_rfl⟩
    · exact ⟨List.prefix_rfl, List.prefix_rfl⟩

theorem grows_run (s : Traffic) (actions : List Action) :
    s.taken <+: (s.run actions).taken ∧ s.accepted <+: (s.run actions).accepted := by
  induction actions generalizing s with
  | nil => exact ⟨List.prefix_rfl, List.prefix_rfl⟩
  | cons action rest ih =>
    have ⟨taken, accepted⟩ := s.grows_next action
    have ⟨later, new⟩ := ih (s.next action)
    exact ⟨taken.trans later, accepted.trans new⟩

/-- The records that came into the queue were emitted in that order. -/
theorem accepted_sublist_next (h : s.accepted.Sublist s.emitted) (action : Action) :
    (s.next action).accepted.Sublist (s.next action).emitted := by
  cases action with
  | emit tracer now method args elapsed =>
    rcases s.next_emit tracer now method args elapsed with
      ⟨_, after⟩ | ⟨_, _, _, _, _, after⟩ | ⟨_, _, after⟩ <;> rw [after]
    · exact h
    · exact h.append (List.Sublist.refl _)
    · exact h.trans (List.sublist_append_left _ _)
  | enable on =>
    simp only [next]
    split <;> exact h
  | change c => exact h
  | work ends error =>
    simp only [next]
    split <;> exact h

/-- What waits now is taken before all that is accepted later, in its order. -/
theorem Conserved.waiting_first {room : Nat} (h : Conserved room s) (actions : List Action) :
    ∃ later new, (s.run actions).taken = s.taken ++ later ∧
      (s.run actions).accepted = s.accepted ++ new ∧
      later ++ (s.run actions).pipeline.queue.items = s.pipeline.queue.items ++ new := by
  obtain ⟨⟨later, taken⟩, ⟨new, accepted⟩⟩ := s.grows_run actions
  refine ⟨later, new, taken.symm, accepted.symm, ?_⟩
  have now := (h.run actions).accepted_eq
  rw [← accepted, ← taken, h.accepted_eq, List.append_assoc, List.append_assoc] at now
  exact (List.append_cancel_left now).symm

/-! ## The dispatcher at work -/

/-- The traffic after some steps of the dispatcher: whether each ends a cancelled one, and what a
handler that it calls answers. -/
def dispatch (s : Traffic) (steps : List (Bool × Option HandlerError)) : Traffic :=
  s.run (steps.map fun (ends, error) => .work ends error)

theorem pipeline_work (s : Traffic) (ends : Bool) (error : Option HandlerError) :
    (s.next (.work ends error)).pipeline = s.pipeline.work ends error.isSome := by
  simp only [next]
  split <;> rfl

theorem accepted_dispatch (s : Traffic) (steps : List (Bool × Option HandlerError)) :
    (s.dispatch steps).accepted = s.accepted := by
  induction steps generalizing s with
  | nil => rfl
  | cons step rest ih =>
    obtain ⟨ends, error⟩ := step
    have same : (s.next (.work ends error)).accepted = s.accepted := by
      simp only [next]
      split <;> rfl
    exact (ih (s.next (.work ends error))).trans same

/-- A dispatcher that is at work delivers all that waits. -/
theorem isIdle_dispatch (working : s.pipeline.isWorking)
    {steps : List (Bool × Option HandlerError)} (enough : s.pipeline.owed ≤ steps.length) :
    (s.dispatch steps).pipeline.isIdle := by
  induction steps generalizing s with
  | nil => exact Pipeline.isIdle_of_owed (Nat.le_zero.mp enough)
  | cons step rest ih =>
    obtain ⟨ends, error⟩ := step
    have ⟨still, nearer⟩ := Pipeline.owed_work working ends error.isSome
    rw [← s.pipeline_work ends error] at still nearer
    refine ih (s := s.next (.work ends error)) still ?_
    rw [List.length_cons] at enough
    omega

theorem Conserved.dispatch {room : Nat} (h : Conserved room s)
    (steps : List (Bool × Option HandlerError)) : Conserved room (s.dispatch steps) := h.run _

theorem Conserved.taken_dispatch {room : Nat} (h : Conserved room s)
    (working : s.pipeline.isWorking) {steps : List (Bool × Option HandlerError)}
    (enough : s.pipeline.owed ≤ steps.length) :
    (s.dispatch steps).taken = s.taken ++ s.pipeline.queue.items := by
  have ⟨empty, _⟩ := isIdle_dispatch working enough
  have accepted := (h.dispatch steps).accepted_eq
  rw [accepted_dispatch, h.accepted_eq, empty, List.append_nil] at accepted
  exact accepted.symm

/-! ## Conservation -/

/-- Whatever has happened to a new pipeline, and whatever happens from there on: an emission while
it is disabled changes nothing, one while it is enabled is rejected exactly when the queue is full;
what has been accepted is what has been taken and then what waits; and the counts add up to the
emissions while it was enabled. What waits at any time, as when the pipeline is disabled, is taken
before all that is accepted later, and is delivered once it is enabled. -/
theorem conserves_records (settings : PipelineSettings) (registry : Registry)
    (before after : List Action) :
    let room := max settings.queueCapacity.toNat 1
    let early := (start settings registry).run before
    let s := early.run after
    (∀ (tracer : Tracer) (now : Instant) (method : String) (args : List Json) (elapsed : Nat),
      let r := tracer.record now method args
      let s' := s.next (.emit tracer now method args elapsed)
      if s.pipeline.enabled then
        s'.emitted = s.emitted ++ [r] ∧
        (s'.accepted, s'.rejected) =
          if s.pipeline.pending = room then (s.accepted, s.rejected ++ [r])
          else (s.accepted ++ [r], s.rejected)
      else s' = s) ∧
    s.accepted = s.taken ++ s.pipeline.queue.items ∧
    s.pipeline.loss.total = s.rejected.length ∧
    s.pipeline.delivered + s.pipeline.pending + s.pipeline.loss.total +
      s.pipeline.delivery?.toList.length = s.emitted.length ∧
    (∃ later new, s.taken = early.taken ++ later ∧ s.accepted = early.accepted ++ new ∧
      later ++ s.pipeline.queue.items = early.pipeline.queue.items ++ new) ∧
    (early.pipeline.isStopping = false →
      ∀ steps : List (Bool × Option HandlerError),
        (early.next (.enable true)).pipeline.owed ≤ steps.length →
          let later := (early.next (.enable true)).dispatch steps
          later.taken = early.taken ++ early.pipeline.queue.items ∧
            later.pipeline.delivered = later.taken.length) := by
  intro room early s
  have first : Conserved room early := (Conserved.start settings registry).run before
  have now : Conserved room s := first.run after
  refine ⟨?_, now.accepted_eq, now.lost_eq, now.balance, first.waiting_first after, ?_⟩
  · intro tracer time method args elapsed r s'
    rcases s.next_emit tracer time method args elapsed with
      ⟨off, same⟩ | ⟨on, free, _, _, _, after⟩ | ⟨on, full, after⟩
    · rw [if_neg (by simp [off])]
      exact same
    · have not_full : s.pipeline.pending ≠ room := by
        rw [now.capacity_eq] at free
        exact Nat.ne_of_lt free
      rw [if_pos on, if_neg not_full]
      exact ⟨congrArg emitted after, by rw [show s' = _ from after]⟩
    · rw [now.capacity_eq] at full
      rw [if_pos on, if_pos full]
      exact ⟨congrArg emitted after, by rw [show s' = _ from after]⟩
  · intro free steps enough
    have enabled : early.next (.enable true) =
        { early with pipeline := early.pipeline.enable true } := by
      simp only [next, free, Bool.false_eq_true, if_false]
    have working : (early.next (.enable true)).pipeline.isWorking := by
      rw [enabled]
      exact Pipeline.isWorking_enable early.pipeline
    have opened := first.next (.enable true)
    obtain ⟨-, free⟩ := isIdle_dispatch working enough
    have counted := (opened.dispatch steps).taken_eq
    rw [free, Option.toList_none, List.length_nil, Nat.add_zero] at counted
    refine ⟨?_, counted.symm⟩
    rw [opened.taken_dispatch working enough, enabled]
    rfl

end Traffic

end TraceJournal
