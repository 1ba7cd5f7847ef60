import TraceJournal.Proofs.Pipeline.Conservation

/-!
# Every handler gets every record

A delivery goes to the handlers that are registered when it begins, to each of them once and in the
order of their registration, whatever any of them answers and whatever happens to the registry
meanwhile.
-/

namespace TraceJournal

/-! ## The registry -/

namespace Registry

variable {h : HandlerId} {r : Registry}

theorem after_register_of_mem (known : h ∈ r.handlers) : r.after (.register h) = r := by
  simp only [after, register, dif_pos known]

theorem handlers_after_register (unknown : h ∉ r.handlers) :
    (r.after (.register h)).handlers = r.handlers ++ [h] := by
  simp only [after, register, dif_neg unknown]

theorem handlers_after_unregister : (r.after (.unregister h)).handlers = r.handlers.erase h := rfl

theorem not_mem_after_unregister : h ∉ (r.after (.unregister h)).handlers := by
  rw [handlers_after_unregister]
  exact r.nodup.not_mem_erase

/-- Only its registration brings a handler into the registry. -/
theorem not_mem_after {c : Change} (unknown : h ∉ r.handlers) (other : c ≠ .register h) :
    h ∉ (r.after c).handlers := by
  cases c with
  | register g =>
    by_cases known : g ∈ r.handlers
    · rw [after_register_of_mem known]
      exact unknown
    · rw [handlers_after_register known, List.mem_append, List.mem_singleton]
      rintro (old | same)
      · exact unknown old
      · exact other (by rw [same])
  | unregister g => exact fun old => unknown (List.mem_of_mem_erase old)
  | clear => exact List.not_mem_nil

end Registry

/-! ## Who has had which record -/

namespace Pipeline

/-- The handlers that have not had the record that is being delivered, each with it. -/
def toCome (p : Pipeline) : List (HandlerId × Record) :=
  p.delivery?.elim [] fun d => d.remaining.map (·, d.record)

/-- How many handlers have failed on the record that is being delivered. -/
def failing (p : Pipeline) : Nat := p.delivery?.elim 0 (·.failures)

end Pipeline

namespace Traffic

variable {s : Traffic}

/-- The records handed to handlers, in that order. -/
def handed (s : Traffic) : List (HandlerId × Record) := s.calls.map fun c => (c.handler, c.record)

/-- The records handed to one handler. -/
def received (h : HandlerId) (s : Traffic) : List Record :=
  (s.handed.filter (·.1 = h)).map (·.2)

/-- What is to be handed to whom: each record to the handlers of its delivery. -/
def owed (s : Traffic) : List (HandlerId × Record) :=
  s.deliveries.flatMap fun (record, handlers) => handlers.map (·, record)

/-- How many calls were answered with an error. -/
def failed (s : Traffic) : Nat := s.calls.countP (·.error.isSome)

/-- The calls made so far are those that the deliveries call for. -/
structure Fanned (s : Traffic) : Prop where
  handed_eq : s.handed ++ s.pipeline.toCome = s.owed
  failed_eq : s.failed = s.pipeline.failures + s.pipeline.failing
  nodup : ∀ d ∈ s.deliveries, d.2.Nodup

theorem Fanned.start (settings : PipelineSettings) (registry : Registry) :
    Fanned (.start settings registry) where
  handed_eq := rfl
  failed_eq := rfl
  nodup := fun _ none => absurd none List.not_mem_nil

theorem Fanned.work (h : Fanned s) (ends : Bool) (error : Option HandlerError) :
    Fanned (s.next (.work ends error)) := by
  have worked := s.pipeline.worked ends error.isSome
  simp only [next]
  generalize s.pipeline.work ends error.isSome = pipeline at worked ⊢
  cases worked with
  | rests next _ =>
    rw [next]
    exact h
  | stops next free =>
    rw [next]
    refine ⟨?_, ?_, h.nodup⟩
    · simpa [Pipeline.toCome, Pipeline.delivery?, free, handed, owed] using h.handed_eq
    · simpa [Pipeline.failing, Pipeline.delivery?, free, failed] using h.failed_eq
  | takes next free _ _ =>
    rw [next]
    refine ⟨?_, ?_, ?_⟩
    · have handed := h.handed_eq
      simp only [Pipeline.toCome, Pipeline.delivery?, free, Option.bind_some, Option.elim_none,
        List.append_nil] at handed
      change s.handed ++ _ = _
      simp only [Pipeline.toCome, Pipeline.delivery?, Option.bind_some, Option.elim_some, owed,
        List.flatMap_append, List.flatMap_singleton, handed]
    · simpa [Pipeline.failing, Pipeline.delivery?, free, failed] using h.failed_eq
    · intro d member
      rcases List.mem_append.mp member with old | new
      · exact h.nodup d old
      · rw [List.mem_singleton.mp new]
        exact s.pipeline.registry.nodup
  | @calls cancelled d handler rest next held remaining =>
    rw [next]
    refine ⟨?_, ?_, h.nodup⟩
    · have handed := h.handed_eq
      simp only [Pipeline.toCome, Pipeline.delivery?, held, remaining, Option.bind_some,
        Option.elim_some, List.map_cons] at handed
      simp only [Pipeline.toCome, Pipeline.delivery?, Option.bind_some, Option.elim_some,
        Traffic.handed, List.map_append, List.map_cons, List.map_nil, List.append_assoc,
        List.cons_append, List.nil_append]
      exact handed
    · have failed := h.failed_eq
      simp only [Pipeline.failing, Pipeline.delivery?, held, Option.bind_some,
        Option.elim_some] at failed
      simp only [Pipeline.failing, Pipeline.delivery?, Option.bind_some, Option.elim_some,
        Traffic.failed, List.countP_append, List.countP_singleton] at failed ⊢
      cases error <;> simp <;> omega
  | finishes next held remaining =>
    rw [next]
    refine ⟨?_, ?_, h.nodup⟩
    · simpa [Pipeline.toCome, Pipeline.delivery?, held, remaining, handed, owed] using h.handed_eq
    · simpa [Pipeline.failing, Pipeline.delivery?, held, failed] using h.failed_eq

theorem Fanned.next (h : Fanned s) (action : Action) : Fanned (s.next action) := by
  cases action with
  | emit tracer now method args elapsed =>
    rcases s.next_emit tracer now method args elapsed with
      ⟨_, after⟩ | ⟨_, _, _, _, _, after⟩ | ⟨_, _, after⟩ <;> rw [after]
    · exact h
    · exact ⟨h.handed_eq, h.failed_eq, h.nodup⟩
    · exact ⟨h.handed_eq, h.failed_eq, h.nodup⟩
  | enable on =>
    simp only [Traffic.next]
    split
    · exact h
    · refine ⟨?_, ?_, h.nodup⟩
      · rw [Pipeline.toCome, Pipeline.delivery?_enable]
        exact h.handed_eq
      · rw [Pipeline.failing, Pipeline.delivery?_enable]
        exact h.failed_eq
  | change c => exact ⟨h.handed_eq, h.failed_eq, h.nodup⟩
  | work ends error => exact h.work ends error

theorem Fanned.run (h : Fanned s) (actions : List Action) : Fanned (s.run actions) := by
  induction actions generalizing s with
  | nil => exact h
  | cons action rest ih => exact ih (h.next action)

/-- Only taking a record begins a delivery. -/
theorem deliveries_next (s : Traffic) (action : Action) :
    (s.next action).deliveries = s.deliveries ∨
      ∃ record queue, s.pipeline.queue.items = record :: queue ∧ s.pipeline.delivery? = none ∧
        (s.next action).deliveries =
          s.deliveries ++ [(record, s.pipeline.registry.handlers)] := by
  cases action with
  | emit tracer now method args elapsed =>
    exact .inl (s.emit_keeps tracer now method args elapsed).1
  | enable on =>
    left
    simp only [next]
    split <;> rfl
  | change c => exact .inl rfl
  | work ends error =>
    have worked := s.pipeline.worked ends error.isSome
    simp only [next]
    generalize s.pipeline.work ends error.isSome = pipeline at worked ⊢
    cases worked with
    | takes next free items _ =>
      right
      rw [next]
      exact ⟨_, _, items, by rw [Pipeline.delivery?, free]; rfl, rfl⟩
    | rests next _ =>
      left
      rw [next]
    | stops next _ =>
      left
      rw [next]
    | calls next _ _ =>
      left
      rw [next]
    | finishes next _ _ =>
      left
      rw [next]

theorem Fanned.dispatch (h : Fanned s) (steps : List (Bool × Option HandlerError)) :
    Fanned (s.dispatch steps) := h.run _

/-! ## The registry during a run -/

/-- The change of the registry that an action is. -/
def Action.change? : Action → Option Registry.Change
  | .change c => some c
  | _ => none

theorem registry_next (s : Traffic) (action : Action) :
    (s.next action).pipeline.registry =
      (action.change?.toList).foldl Registry.after s.pipeline.registry := by
  cases action with
  | emit tracer now method args elapsed =>
    exact (s.emit_keeps tracer now method args elapsed).2.2
  | enable on =>
    simp only [next]
    split <;> rfl
  | change c => rfl
  | work ends error =>
    rw [pipeline_work]
    have worked := s.pipeline.worked ends error.isSome
    generalize s.pipeline.work ends error.isSome = pipeline at worked ⊢
    cases worked <;> rfl

/-- The registry is what the changes so far have made of it. -/
theorem registry_run (s : Traffic) (actions : List Action) :
    (s.run actions).pipeline.registry =
      (actions.filterMap Action.change?).foldl Registry.after s.pipeline.registry := by
  induction actions generalizing s with
  | nil => rfl
  | cons action rest ih =>
    rw [run_cons, ih, registry_next, List.filterMap_cons]
    cases action.change? <;> rfl

/-- A handler that was removed is not registered until it is registered again. -/
theorem not_mem_run {h : HandlerId} (unknown : h ∉ s.pipeline.registry.handlers)
    {actions : List Action} (others : Action.change (.register h) ∉ actions) :
    h ∉ (s.run actions).pipeline.registry.handlers := by
  induction actions generalizing s with
  | nil => exact unknown
  | cons action rest ih =>
    rw [List.mem_cons, not_or] at others
    refine ih ?_ others.2
    rw [registry_next]
    cases action with
    | change c => exact Registry.not_mem_after unknown fun same => others.1 (by rw [same])
    | emit => exact unknown
    | enable => exact unknown
    | work => exact unknown

/-! ## What the handlers answer does not matter -/

/-- The action without the answer of a handler. -/
def Action.plain : Action → Action
  | .work ends _ => .work ends none
  | action => action

end Traffic

namespace Pipeline

/-- The pipeline without its counts of failures. -/
def plain (p : Pipeline) : Pipeline :=
  { p with
    failures := 0
    dispatcher := p.dispatcher.map fun d =>
      { d with delivery := d.delivery.map fun delivery => { delivery with failures := 0 } } }

@[simp] theorem enabled_plain (p : Pipeline) : p.plain.enabled = p.enabled := rfl

@[simp] theorem pending_plain (p : Pipeline) : p.plain.pending = p.pending := rfl

@[simp] theorem registry_plain (p : Pipeline) : p.plain.registry = p.registry := rfl

@[simp] theorem isStopping_plain (p : Pipeline) : p.plain.isStopping = p.isStopping := by
  rcases hd : p.dispatcher with _ | ⟨_, _ | _⟩ <;> simp [isStopping, plain, hd]

theorem plain_emit (elapsed : Nat) (r : Record) (p : Pipeline) :
    (p.plain.emit elapsed r).2 = (p.emit elapsed r).2.plain := by
  by_cases on : p.enabled = true
  · cases offered : p.queue.offer? r <;> simp [emit, plain, on, offered]
  · simp [emit, plain, on]

theorem plain_enable (on : Bool) (p : Pipeline) : p.plain.enable on = (p.enable on).plain := by
  cases hd : p.dispatcher with
  | none => cases on <;> simp [enable, plain, hd]
  | some d => simp [enable, plain, hd]

theorem plain_plain (p : Pipeline) : p.plain.plain = p.plain := by
  rcases hd : p.dispatcher with _ | ⟨_, _ | _⟩ <;> simp [plain, hd]

theorem plain_next (ends : Bool) (p : Pipeline) : p.plain.next ends = p.next ends := by
  rcases hd : p.dispatcher with _ | ⟨_, _ | _⟩ <;> simp [next, plain, hd]

theorem plain_answered (failed : Bool) (p : Pipeline) :
    (p.plain.answered false).plain = (p.answered failed).plain := by
  rcases hd : p.dispatcher with _ | ⟨_, _ | _⟩ <;> simp [answered, plain, hd]

theorem plain_finished (p : Pipeline) : p.plain.finished.plain = p.finished.plain := by
  rcases hd : p.dispatcher with _ | ⟨_, _ | _⟩ <;> simp [finished, plain, hd]

theorem plain_taken (record : Record) (queue : Queue Record) (p : Pipeline) :
    (p.plain.taken record queue).plain = (p.taken record queue).plain := by
  rcases hd : p.dispatcher with _ | ⟨_, _ | _⟩ <;> simp [taken, plain, hd]

/-- Failures change nothing else. -/
theorem plain_work (ends failed : Bool) (p : Pipeline) :
    (p.plain.work ends false).plain = (p.work ends failed).plain := by
  simp only [work, plain_next]
  cases p.next ends with
  | nothing => exact p.plain_plain
  | stop => rfl
  | take record queue => exact p.plain_taken record queue
  | call _ _ => exact p.plain_answered failed
  | finish => exact p.plain_finished

end Pipeline

namespace Traffic

variable {s : Traffic}

/-- The traffic without the answers of the handlers. -/
def plain (s : Traffic) : Traffic :=
  { s with
    pipeline := s.pipeline.plain
    calls := s.calls.map fun c => { c with error := none } }

theorem plain_plain (s : Traffic) : s.plain.plain = s.plain := by
  simp [plain, Pipeline.plain_plain]

theorem handed_plain (s : Traffic) : s.plain.handed = s.handed := by
  simp [handed, plain]

theorem plain_next (s : Traffic) (action : Action) :
    (s.plain.next action.plain).plain = (s.next action).plain := by
  have pipeline : s.plain.pipeline = s.pipeline.plain := rfl
  cases action with
  | emit tracer now method args elapsed =>
    simp only [next, Action.plain, pipeline, Pipeline.plain_emit, Pipeline.enabled_plain,
      Pipeline.pending_plain]
    split
    · split <;> simp [plain, Pipeline.plain_plain]
    · simp [plain, Pipeline.plain_plain]
  | enable on =>
    simp only [next, Action.plain, pipeline, Pipeline.isStopping_plain, Pipeline.plain_enable]
    split <;> simp [plain, Pipeline.plain_plain]
  | change c =>
    have changed : { s.pipeline.plain with registry := s.pipeline.registry.after c } =
        { s.pipeline with registry := s.pipeline.registry.after c }.plain := rfl
    simp only [next, Action.plain, pipeline, Pipeline.registry_plain, changed]
    simp [plain, Pipeline.plain_plain]
  | work ends error =>
    simp only [next, Action.plain, pipeline, Pipeline.plain_next, Pipeline.registry_plain,
      Option.isSome_none]
    split <;> simp [plain, Pipeline.plain_work ends error.isSome]

/-- Two runs that differ in the answers of the handlers only hand the same records to the same
handlers. -/
theorem plain_run {s t : Traffic} (alike : s.plain = t.plain) {actions others : List Action}
    (same : actions.map Action.plain = others.map Action.plain) :
    (s.run actions).plain = (t.run others).plain := by
  induction actions generalizing s t others with
  | nil =>
    rw [List.map_nil, eq_comm, List.map_eq_nil_iff] at same
    rw [same]
    exact alike
  | cons action rest ih =>
    cases others with
    | nil => simp at same
    | cons other later =>
      rw [List.map_cons, List.map_cons, List.cons_eq_cons] at same
      refine ih (s := s.next action) (t := t.next other) ?_ same.2
      rw [← plain_next, alike, same.1, plain_next]

/-! ## Fan-out -/

/-- Whatever has happened to a new pipeline with some handlers: the calls so far are those that the
deliveries call for, but for the handlers still to come in the present one, and a delivery that
begins is for the handlers registered at that time. The registry is what the changes have made of
it; a handler that is removed and later registered again stands at its end. Errors are counted, and
no handler's records depend on them. A dispatcher at work makes all the calls there are to make. -/
theorem fans_out (settings : PipelineSettings) (registry : Registry) (actions : List Action) :
    let s := (start settings registry).run actions
    s.handed ++ s.pipeline.toCome = s.owed ∧
    (∀ action,
      (s.next action).deliveries = s.deliveries ∨
        ∃ record queue, s.pipeline.queue.items = record :: queue ∧
          s.pipeline.delivery? = none ∧
          (s.next action).deliveries =
            s.deliveries ++ [(record, s.pipeline.registry.handlers)]) ∧
    s.pipeline.registry =
      (actions.filterMap Action.change?).foldl Registry.after registry ∧
    (∀ d ∈ s.deliveries, d.2.Nodup) ∧
    (∀ h between, Action.change (.register h) ∉ between →
      let t := (s.next (.change (.unregister h))).run between
      (t.next (.change (.register h))).pipeline.registry.handlers =
        t.pipeline.registry.handlers ++ [h]) ∧
    (∀ others, others.map Action.plain = actions.map Action.plain →
      ∀ h, received h ((start settings registry).run others) = received h s) ∧
    s.pipeline.failures + s.pipeline.failing = s.failed ∧
    s.pipeline.delivered + s.pipeline.delivery?.toList.length = s.deliveries.length ∧
    (s.pipeline.isWorking →
      ∀ steps : List (Bool × Option HandlerError), s.pipeline.owed ≤ steps.length →
        (s.dispatch steps).taken = s.accepted ∧
          (s.dispatch steps).handed = (s.dispatch steps).owed) := by
  intro s
  have fanned : Fanned s := (Fanned.start settings registry).run actions
  have conserved := (Conserved.start settings registry).run actions
  refine ⟨fanned.handed_eq, s.deliveries_next, registry_run _ actions, fanned.nodup, ?_, ?_,
    fanned.failed_eq.symm, ?_, ?_⟩
  · intro h between others t
    have unknown : h ∉ t.pipeline.registry.handlers :=
      not_mem_run Registry.not_mem_after_unregister others
    exact Registry.handlers_after_register unknown
  · intro others same h
    have alike := plain_run (s := start settings registry) rfl same
    rw [received, ← handed_plain, alike, handed_plain]
    rfl
  · rw [← conserved.taken_eq, taken, List.length_map]
  · intro working steps enough
    obtain ⟨-, free⟩ := isIdle_dispatch working enough
    have handed := (fanned.dispatch steps).handed_eq
    rw [Pipeline.toCome, free, Option.elim_none, List.append_nil] at handed
    refine ⟨?_, handed⟩
    rw [conserved.taken_dispatch working enough, conserved.accepted_eq]

end Traffic

end TraceJournal
