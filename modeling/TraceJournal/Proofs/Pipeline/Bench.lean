import TraceJournal.Pipeline.Bench
import TraceJournal.Proofs.Pipeline.Fanout

/-!
# A bench makes traffic

All that a bench does to its pipeline is traffic: emissions, steps of the dispatcher, and what
handlers do to the registry or to the pipeline while they handle a record. So whatever holds after
any traffic holds at a bench.
-/

namespace TraceJournal

namespace Traffic

theorem pipeline_emit (s : Traffic) (tracer : Tracer) (now : Instant) (method : String)
    (args : List Json) (elapsed : Nat) :
    (s.next (.emit tracer now method args elapsed)).pipeline =
      (s.pipeline.emit elapsed (tracer.record now method args)).2 := by
  simp only [next]
  split
  · split <;> rfl
  · rfl

end Traffic

namespace Pipeline

/-! ## Pipelines that are disabled while they stop -/

/-- While its dispatcher is stopping, the pipeline is disabled. -/
def Tidy (p : Pipeline) : Prop := p.isStopping = true → p.enabled = false

theorem tidy_create (settings : PipelineSettings) : (create settings).Tidy := nofun

variable {p : Pipeline}

theorem tidy_enable (on : Bool) (p : Pipeline) : (p.enable on).Tidy := by
  intro stopping
  cases on with
  | false => rfl
  | true =>
    cases hd : p.dispatcher with
    | none => simp [isStopping, enable, hd] at stopping
    | some d => simp [isStopping, enable, hd] at stopping

theorem Tidy.work (h : p.Tidy) (ends failed : Bool) : (p.work ends failed).Tidy := by
  have worked := p.worked ends failed
  generalize p.work ends failed = q at worked ⊢
  cases worked with
  | rests => exact h
  | stops => exact nofun
  | takes _ held | calls _ held | finishes _ held =>
    intro stopping
    apply h
    simpa [isStopping, held] using stopping

theorem Tidy.emit (h : p.Tidy) (elapsed : Nat) (record : Record) :
    (p.emit elapsed record).2.Tidy := by
  have emitted := p.emitted elapsed record
  generalize p.emit elapsed record = answer at emitted ⊢
  cases emitted <;> exact h

end Pipeline

namespace Traffic

/-- Traffic leaves a pipeline disabled while it stops. -/
theorem tidy_next {s : Traffic} (h : s.pipeline.Tidy) (action : Action) :
    (s.next action).pipeline.Tidy := by
  cases action with
  | emit tracer now method args elapsed =>
    rw [s.pipeline_emit]
    exact h.emit _ _
  | enable on =>
    simp only [next]
    split
    · exact h
    · exact s.pipeline.tidy_enable on
  | change c => exact h
  | work ends error =>
    rw [s.pipeline_work]
    exact h.work _ _

theorem tidy_run {s : Traffic} (h : s.pipeline.Tidy) (actions : List Action) :
    (s.run actions).pipeline.Tidy := by
  induction actions generalizing s with
  | nil => exact h
  | cons action rest ih => exact ih (tidy_next h action)

end Traffic

namespace Pipeline

variable {p q r : Pipeline}

/-! ## Pipelines between which there is traffic -/

/-- Some traffic leads from one pipeline to the other. -/
def Leads (p q : Pipeline) : Prop :=
  ∃ actions : List Traffic.Action, ∀ s : Traffic, s.pipeline = p → (s.run actions).pipeline = q

namespace Leads

theorem refl (p : Pipeline) : p.Leads p := ⟨[], fun _ here => here⟩

theorem trans (first : p.Leads q) (later : q.Leads r) : p.Leads r := by
  obtain ⟨before, first⟩ := first
  obtain ⟨after, later⟩ := later
  refine ⟨before ++ after, ?_⟩
  intro s here
  rw [s.run_append]
  exact later _ (first s here)

theorem tidy (h : p.Leads q) (tidy : p.Tidy) : q.Tidy := by
  obtain ⟨actions, leads⟩ := h
  rw [← leads ⟨p, [], [], [], [], []⟩ rfl]
  exact Traffic.tidy_run tidy actions

theorem single (action : Traffic.Action)
    (h : ∀ s : Traffic, s.pipeline = p → (s.next action).pipeline = q) : p.Leads q :=
  ⟨[action], h⟩

theorem work (p : Pipeline) (ends : Bool) (error : Option HandlerError) :
    p.Leads (p.work ends error.isSome) := by
  apply single (.work ends error)
  intro s here
  rw [s.pipeline_work, here]

theorem emit (p : Pipeline) (tracer : Tracer) (now : Instant) (method : String) (args : List Json)
    (elapsed : Nat) : p.Leads (p.emit elapsed (tracer.record now method args)).2 := by
  apply single (.emit tracer now method args elapsed)
  intro s here
  rw [s.pipeline_emit, here]

theorem change (p : Pipeline) (c : Registry.Change) :
    p.Leads { p with registry := p.registry.after c } := by
  apply single (.change c)
  intro s here
  rw [← here]
  rfl

theorem enable (p : Pipeline) (on : Bool) (free : p.isStopping = false) :
    p.Leads (p.enable on) := by
  apply single (.enable on)
  intro s here
  simp only [Traffic.next, here, free, Bool.false_eq_true, if_false]

/-- Disabling a pipeline that stops already changes nothing. -/
theorem disable (tidy : p.Tidy) : p.Leads (p.enable false) := by
  cases stopping : p.isStopping with
  | false => exact enable p false stopping
  | true =>
    have off := tidy stopping
    have same : p.enable false = p := by
      rcases hd : p.dispatcher with _ | ⟨_ | _, delivery⟩
      · simp [isStopping, hd] at stopping
      · simp [isStopping, hd] at stopping
      · obtain ⟨settings, queue, registry, enabled, loss, delivered, failures, dispatcher⟩ := p
        cases hd
        cases off
        rfl
    rw [same]
    exact refl p

end Leads

/-- Whatever traffic leads to a pipeline at which a handler is being called, the answer of the
handler is traffic too. -/
theorem Leads.answered {h : HandlerId} {record : Record} (leads : p.Leads q)
    (call : q.next true = .call h record) (error : Option HandlerError) :
    p.Leads (q.answered error.isSome) := by
  have answers := Leads.work q true error
  rw [Pipeline.work, call] at answers
  exact leads.trans answers

/-- Disabling the pipeline makes no difference for the handler that is being called. -/
theorem next_enable_of_call {ends : Bool} {h : HandlerId} {record : Record} (on : Bool)
    (call : p.next ends = .call h record) : (p.enable on).next ends = .call h record := by
  obtain ⟨cancelled, d, rest, held, remaining, rfl⟩ := dispatcher_of_call call
  simp only [next, enable, held, remaining]

end Pipeline

namespace Bench

variable {b b' : Bench}

/-- Changing the registry is traffic, and makes no difference for the handler that is being
called. -/
theorem leads_reshuffle (clear : Bool) (added removed : List String) (b : Bench) :
    b.pipeline.Leads (b.reshuffle clear added removed).pipeline ∧
      (b.reshuffle clear added removed).pipeline.next true = b.pipeline.next true := by
  -- A script registers some handlers and removes others, one change after the other.
  have fold {f : HandlerId → Bench → Bench} {c : HandlerId → Registry.Change}
      (step : ∀ (id : HandlerId) (b : Bench), (f id b).pipeline =
        { b.pipeline with registry := b.pipeline.registry.after (c id) })
      (ids : List HandlerId) (b : Bench) :
      b.pipeline.Leads (ids.foldl (fun b id => f id b) b).pipeline ∧
        (ids.foldl (fun b id => f id b) b).pipeline.next true = b.pipeline.next true := by
    induction ids generalizing b with
    | nil => exact ⟨.refl _, rfl⟩
    | cons id rest ih =>
      obtain ⟨leads, same⟩ := ih (f id b)
      rw [step id b] at leads same
      exact ⟨(Pipeline.Leads.change b.pipeline (c id)).trans leads, same⟩
  have cleared : b.pipeline.Leads (if clear then b.unregisterAll else b).pipeline ∧
      (if clear then b.unregisterAll else b).pipeline.next true = b.pipeline.next true := by
    cases clear with
    | false => exact ⟨.refl _, rfl⟩
    | true => exact ⟨.change b.pipeline .clear, rfl⟩
  have registered := fold (f := fun id b => (b.register id).2) (c := .register) (fun _ _ => rfl)
  have removed' := fold (f := fun id b => (b.unregister id).2) (c := .unregister) (fun _ _ => rfl)
  exact ⟨(cleared.1.trans (registered _ _).1).trans (removed' _ _).1,
    ((removed' _ _).2.trans (registered _ _).2).trans cleared.2⟩

/-- What a script does, and its answer, are traffic. -/
theorem leads_perform {id : HandlerId} {record : Record} (tidy : b.pipeline.Tidy)
    (call : b.pipeline.next true = .call id record) (h : Handler) (act : Act) :
    b.pipeline.Leads (b.perform h act record).pipeline := by
  cases act with
  | collect => exact (Pipeline.Leads.refl _).answered call none
  | fail error => exact (Pipeline.Leads.refl _).answered call (some error)
  | panic payload =>
    exact (Pipeline.Leads.refl _).answered call
      (some (.panicked (payload.getD HandlerError.unknownPayload)))
  | gate => exact (Pipeline.Leads.refl _).answered call none
  | disable =>
    exact (Pipeline.Leads.disable tidy).answered (Pipeline.next_enable_of_call false call) none
  | reshuffle clear added removed =>
    obtain ⟨leads, same⟩ := b.leads_reshuffle clear added removed
    exact leads.answered (same.trans call) none

/-- What a handler with a script does with a record is traffic: it waits, or acts, or only notes
it. -/
theorem leads_scripted {id : HandlerId} {record : Record} {h : Handler} {act : Act}
    {waits applies : Bool} (tidy : b.pipeline.Tidy) (call : b.pipeline.next true = .call id record)
    (step : (if waits && b.noted then none
      else if waits then some { b.setHandler id h with noted := true }
      else if applies then some ((b.setHandler id h).perform h act record)
      else some ((b.setHandler id h).answer h record none)) = some b') :
    b.pipeline.Leads b'.pipeline := by
  split at step
  · cases step
  · split at step
    · cases step
      exact .refl _
    · split at step
      · cases step
        exact leads_perform (b := b.setHandler id h) tidy call h act
      · cases step
        exact (Pipeline.Leads.refl _).answered call none

/-- What a handler does with a record is traffic. -/
theorem leads_call {id : HandlerId} {record : Record} (tidy : b.pipeline.Tidy)
    (call : b.pipeline.next true = .call id record) (step : b.call? id record = some b') :
    b.pipeline.Leads b'.pipeline := by
  have answered := (Pipeline.Leads.refl b.pipeline).answered call
  unfold call? at step
  rcases found : b.handlers[id]? with _ | (level | ⟨writer, link⟩ | ⟨name, only, act, seen⟩) <;>
    simp only [found] at step
  · cases step
    exact answered none
  · cases step
    exact answered none
  · rcases answer : writer.handle record link with ⟨e | (_ | e), writer', link'⟩ <;>
      simp only [answer] at step <;> cases step
    · exact answered (some e)
    · exact answered none
    · exact answered none
  · exact leads_scripted tidy call step

/-- A step of the dispatcher is traffic. -/
theorem leads_step (tidy : b.pipeline.Tidy) (h : b.step? = some b') :
    b.pipeline.Leads b'.pipeline := by
  unfold step? at h
  split at h
  · cases h
  · next id record call => exact leads_call tidy call h
  · cases h
    exact .work b.pipeline true none

/-- All that the dispatcher does is traffic. -/
theorem leads_runFor (tidy : b.pipeline.Tidy) (rounds : Nat) :
    b.pipeline.Leads (b.runFor rounds).pipeline := by
  induction rounds generalizing b with
  | zero => exact .refl _
  | succ rounds ih =>
    rw [runFor]
    split
    · next b' stepped =>
      have leads := leads_step tidy stepped
      exact leads.trans (ih (leads.tidy tidy))
    · exact .refl _

/-- An emission, and all that the dispatcher does then, is traffic. -/
theorem leads_emit (tidy : b.pipeline.Tidy) (tracer : Tracer) (method : String)
    (args : List Json) : b.pipeline.Leads (b.emit tracer method args).pipeline := by
  have offered : (b.offer tracer method args).pipeline =
      (b.pipeline.emit 0 (tracer.record b.now method args)).2 := by
    unfold offer
    rcases b.pipeline.emit 0 (tracer.record b.now method args) with ⟨_ | report, pipeline⟩ <;> rfl
  have leads : b.pipeline.Leads (b.offer tracer method args).pipeline := by
    rw [offered]
    exact .emit b.pipeline tracer b.now method args 0
  exact leads.trans (leads_runFor (leads.tidy tidy) _)

/-- The benches that there can be, with a pipeline of the given settings. -/
inductive Reached (settings : PipelineSettings) : Bench → Prop where
  | create (now : Instant) : Reached settings (.create settings now)
  | addHandler {b : Bench} (name : String) (h : Handler) :
    Reached settings b → Reached settings (b.addHandler name h).2
  | register {b : Bench} (id : HandlerId) : Reached settings b → Reached settings (b.register id).2
  | unregister {b : Bench} (id : HandlerId) :
    Reached settings b → Reached settings (b.unregister id).2
  | unregisterAll {b : Bench} : Reached settings b → Reached settings b.unregisterAll
  /-- Nobody enables or disables a pipeline that somebody waits to see stopped. -/
  | enable {b : Bench} (on : Bool) : b.pipeline.isStopping = false → Reached settings b →
    Reached settings { b with pipeline := b.pipeline.enable on }
  | gate {b : Bench} (gateOpen : Bool) : Reached settings b → Reached settings { b with gateOpen }
  | emit {b : Bench} (tracer : Tracer) (method : String) (args : List Json) :
    Reached settings b → Reached settings (b.emit tracer method args)
  | run {b : Bench} : Reached settings b → Reached settings b.run

theorem Reached.leads {settings : PipelineSettings} (h : Reached settings b) :
    (Pipeline.create settings).Leads b.pipeline := by
  have tidy := Pipeline.tidy_create settings
  induction h with
  | create => exact .refl _
  | addHandler _ _ _ ih | gate _ _ ih => exact ih
  | @register b id _ ih => exact ih.trans (.change b.pipeline (.register id))
  | @unregister b id _ ih => exact ih.trans (.change b.pipeline (.unregister id))
  | @unregisterAll b _ ih => exact ih.trans (.change b.pipeline .clear)
  | @enable b on free _ ih => exact ih.trans (.enable b.pipeline on free)
  | emit tracer method args _ ih => exact ih.trans (leads_emit (ih.tidy tidy) tracer method args)
  | run _ ih => exact ih.trans (leads_runFor (ih.tidy tidy) _)

/-- Whatever is done at a bench, its pipeline keeps its accounts, and the calls that its dispatcher
has made are those that the deliveries call for. -/
theorem Reached.exists_traffic {settings : PipelineSettings} (h : Reached settings b) :
    ∃ s : Traffic, s.pipeline = b.pipeline ∧
      s.Conserved (max settings.queueCapacity.toNat 1) ∧ s.Fanned := by
  obtain ⟨actions, leads⟩ := h.leads
  exact ⟨(Traffic.start settings .empty).run actions, leads _ rfl,
    (Traffic.Conserved.start settings .empty).run actions,
    (Traffic.Fanned.start settings .empty).run actions⟩

end Bench

end TraceJournal
