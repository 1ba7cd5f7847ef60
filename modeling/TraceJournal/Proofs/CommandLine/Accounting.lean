import TraceJournal.CommandLine.Run
import TraceJournal.Proofs.Journal.Ledger
import TraceJournal.Proofs.Pipeline.Bench
import TraceJournal.Proofs.Pipeline.Staff

/-!
# Demonstrations account for every record

The events of a demonstration are emitted one after the other, while a dispatcher takes the records
from the queue at its own pace and hands them to a writer. The counts that are shown in the end tell
of every record what has become of it, but for those on which the writer broke off, and what has come
into the file are the stored records in the order of their emission.
-/

namespace TraceJournal

/-! ## Records of events -/

namespace Json

/-- The value is no container and no number but an integer. -/
def Leaf (j : Json) : Prop := j.Sorted ∧ j.depth = 0 ∧ j.decimals = []

theorem sorted_of_leaves {items : List Json} (leaves : ∀ item ∈ items, item.Leaf) :
    ItemsSorted items ∧ itemsDepth items = 0 ∧ itemsDecimals items = [] := by
  induction items with
  | nil => exact ⟨trivial, rfl, rfl⟩
  | cons item rest ih =>
    obtain ⟨⟨sorted, depth, decimals⟩, later⟩ := List.forall_mem_cons.mp leaves
    obtain ⟨sorted', depth', decimals'⟩ := ih later
    refine ⟨⟨sorted, sorted'⟩, ?_, ?_⟩
    · rw [itemsDepth, depth, depth', Nat.max_self]
    · rw [itemsDecimals, decimals, decimals', List.append_nil]

end Json

/-- An integer is kept as one, or as a text that tells why not. -/
theorem Argument.leaf_kept_integer (n : Int) : (kept (.integer n)).Leaf := by
  unfold kept encode Json.Number.ofInt?
  by_cases fits : -0x8000000000000000 ≤ n ∧ n < 0x10000000000000000
  · rw [dif_pos fits]
    exact ⟨trivial, rfl, rfl⟩
  · rw [dif_neg fits]
    exact ⟨trivial, rfl, rfl⟩

namespace DemoEvent

/-- What the record of an event tells. -/
def message (owner : String) (e : DemoEvent) : String × String × String × List Json :=
  (owner, interface, e.toEvent.method, e.toEvent.args)

theorem leaf_args (e : DemoEvent) : ∀ arg ∈ e.toEvent.args, arg.Leaf := by
  have text (s : String) : (Argument.kept (.text s)).Leaf := ⟨trivial, rfl, rfl⟩
  cases e with
  | started count | finished count =>
    exact List.forall_mem_singleton.mpr (Argument.leaf_kept_integer _)
  | tick index label =>
    exact List.forall_mem_cons.mpr
      ⟨Argument.leaf_kept_integer _, List.forall_mem_singleton.mpr (text label)⟩

end DemoEvent

/-- The document of a record is found as it is exactly if its arguments are. -/
theorem Document.reread?_ofRecord {r : Record} (sorted : Json.ItemsSorted r.args) :
    (ofRecord r).reread? = some (ofRecord r) ↔
      Json.itemsDepth r.args ≤ 124 ∧ ∀ x ∈ Json.itemsDecimals r.args, Json.KeepsDecimal x := by
  have names : (["args", "interface", "method", "owner", "serial", "time"] : List String).Pairwise
      (· < ·) := by decide
  have body : (ofRecord r).body.Sorted := by
    rw [ofRecord, Record.toJson_eq]
    exact ⟨names, sorted, trivial, trivial, trivial, trivial, trivial, trivial⟩
  rw [reread?_eq_some_iff body, ofRecord, Record.toJson_eq]
  simp only [Json.depth, Json.fieldsDepth, Json.decimals, Json.fieldsDecimals, Json.ofWord,
    Json.Number.ofWord, Nat.max_zero, List.append_nil]
  exact and_congr (by omega) Iff.rfl

/-- What is stored of events is found again. -/
theorem DemoEvent.reread_stored {owner : String} {events : List DemoEvent} {stored : List Record}
    (messages : (stored.map Record.message).Sublist (events.map (message owner))) :
    (stored.map Document.ofRecord).filterMap Document.reread? = stored.map .ofRecord := by
  have kept (r : Record) (inside : r ∈ stored) :
      (Document.ofRecord r).reread? = some (.ofRecord r) := by
    obtain ⟨e, -, same⟩ := List.mem_map.mp (messages.mem (List.mem_map_of_mem inside))
    have args : e.toEvent.args = r.args := congrArg (·.2.2.2) same
    obtain ⟨sorted, depth, decimals⟩ := Json.sorted_of_leaves e.leaf_args
    rw [args] at sorted depth decimals
    rw [Document.reread?_ofRecord sorted, depth, decimals]
    exact ⟨Nat.zero_le _, List.forall_mem_nil _⟩
  rw [List.filterMap_map]
  exact List.filterMap_eq_map_iff_forall_eq_some.mpr kept

/-! ## The course of a demonstration -/

namespace Traffic

theorem emitted_work (s : Traffic) (ends : Bool) (error : Option HandlerError) :
    (s.next (.work ends error)).emitted = s.emitted := by
  simp only [next]
  split <;> rfl

theorem emitted_emit {s : Traffic} (on : s.pipeline.enabled = true) (tracer : Tracer)
    (now : Instant) (method : String) (args : List Json) (elapsed : Nat) :
    (s.next (.emit tracer now method args elapsed)).emitted =
      s.emitted ++ [tracer.record now method args] := by
  rcases s.next_emit tracer now method args elapsed with
    ⟨off, -⟩ | ⟨_, _, _, _, _, after⟩ | ⟨_, _, after⟩
  · rw [on] at off
    cases off
  · rw [after]
  · rw [after]

end Traffic

/-- Emits an event, if the pipeline is enabled, `elapsed` milliseconds after the previous report of
losses; the dispatcher does not come to it yet. -/
def Bench.offerAfter (elapsed : Nat) (now : Instant) (t : Tracer) (method : String)
    (args : List Json) (b : Bench) : Bench :=
  let (report, pipeline) := b.pipeline.emit elapsed (t.record now method args)
  let b := { b with pipeline }
  match report with
  | some r => b.log (.overflow r)
  | none => b

theorem Bench.offer_eq (t : Tracer) (method : String) (args : List Json) (b : Bench) :
    b.offer t method args = b.offerAfter 0 b.now t method args := rfl

theorem Bench.offerAfter_keeps (elapsed : Nat) (now : Instant) (t : Tracer) (method : String)
    (args : List Json) (b : Bench) :
    (b.offerAfter elapsed now t method args).pipeline =
        (b.pipeline.emit elapsed (t.record now method args)).2 ∧
      (b.offerAfter elapsed now t method args).handlers = b.handlers := by
  unfold offerAfter
  rcases b.pipeline.emit elapsed (t.record now method args) with ⟨_ | report, pipeline⟩ <;>
    exact ⟨rfl, rfl⟩

/-- A demonstration on its way. -/
structure Emission where
  bench : Bench
  /-- The events that are still to be emitted. -/
  ahead : List DemoEvent

namespace Emission

/-- What happens in a demonstration. -/
inductive Action where
  /-- The next event is emitted, `elapsed` milliseconds after the previous report of losses. -/
  | emit (now : Instant) (elapsed : Nat)
  /-- The dispatcher takes a step, if it can. -/
  | dispatch

/-- The demonstration after an action. -/
def next (owner : String) (c : Emission) : Action → Emission
  | .emit now elapsed =>
    match c.ahead with
    | [] => c
    | e :: rest =>
      ⟨c.bench.offerAfter elapsed now ⟨owner, DemoEvent.interface⟩ e.toEvent.method e.toEvent.args,
        rest⟩
  | .dispatch => { c with bench := c.bench.advance }

/-- The demonstration after some actions. -/
def run (owner : String) (c : Emission) (actions : List Action) : Emission :=
  actions.foldl (next owner) c

/-- A demonstration with so many ticks, before its first event. -/
def start (settings : Settings) (verbose : Bool) (now : Instant) (link : Link) (count : UInt64) :
    Emission :=
  ⟨Demonstration.start settings verbose now link, DemoEvent.sequence count⟩

/-- The bench when the pipeline has been disabled and the dispatcher has ended. -/
def close (c : Emission) : Bench :=
  { c.bench with pipeline := c.bench.pipeline.enable false }.run

/-- What holds throughout, of the events `events`, and of a writer on the store `s` alone with its
file, when `misses` look-ups fail. -/
structure Inv (owner : String) (events : List DemoEvent) (s : Segment) (disk : Disk) (misses : Nat)
    (traffic : Traffic) (writer : Writer) (link : Link) (ledger : Ledger) (c : Emission) : Prop where
  pipeline_eq : traffic.pipeline = c.bench.pipeline
  staffed : c.bench.Staffed writer link
  within : c.bench.pipeline.Within c.bench.handlers.length
  conserved : ∃ room, traffic.Conserved room
  attends : traffic.Attends Demonstration.writerId
  handed_eq : ledger.handed = traffic.received Demonstration.writerId
  kept : ledger.Kept s disk misses writer link
  order : traffic.accepted.Sublist traffic.emitted
  told : traffic.emitted.map Record.message ++ c.ahead.map (DemoEvent.message owner) =
    events.map (DemoEvent.message owner)

namespace Inv

variable {owner : String} {events : List DemoEvent} {s : Segment} {disk : Disk} {misses : Nat}
  {traffic : Traffic} {writer : Writer} {link : Link} {ledger : Ledger} {c : Emission}

/-- A step of the dispatcher. -/
theorem dispatch (h : c.Inv owner events s disk misses traffic writer link ledger) :
    ∃ traffic' writer' link' ledger',
      (c.next owner .dispatch).Inv owner events s disk misses traffic' writer' link' ledger' := by
  have stepped := h.staffed.stepped
  obtain ⟨room, conserved⟩ := h.conserved
  -- The traffic goes on with any step that the dispatcher takes.
  have goes {b : Bench} {writer' : Writer} {link' : Link} {ledger' : Ledger}
      (error : Option HandlerError) (same : b.pipeline = c.bench.pipeline.work true error.isSome)
      (size : b.handlers.length = c.bench.handlers.length) (staffed : b.Staffed writer' link')
      (handed : ledger'.handed =
        (traffic.next (.work true error)).received Demonstration.writerId)
      (kept : ledger'.Kept s disk misses writer' link') :
      Inv owner events s disk misses (traffic.next (.work true error)) writer' link' ledger'
        ⟨b, c.ahead⟩ := by
    refine ⟨?_, staffed, ?_, ⟨room, conserved.next _⟩, h.attends.work true error, handed, kept,
      Traffic.accepted_sublist_next h.order _, ?_⟩
    · rw [traffic.pipeline_work, h.pipeline_eq, same]
    · rw [same, size]
      exact h.within.work true _
    · rw [traffic.emitted_work]
      exact h.told
  simp only [next, Bench.advance]
  generalize c.bench.step? = answer at stepped ⊢
  cases stepped with
  | rests => exact ⟨traffic, writer, link, ledger, h⟩
  | hands record error call same size staffed =>
    rw [← h.pipeline_eq] at call
    obtain ⟨ledger', handed, kept⟩ := h.kept.handle record
    refine ⟨_, _, _, ledger', goes error same size staffed ?_ kept⟩
    rw [handed, h.handed_eq, traffic.received_work error call, if_pos rfl]
  | passes other same size staffed =>
    rw [← h.pipeline_eq] at other
    refine ⟨_, _, _, ledger, goes none same size staffed ?_ h.kept⟩
    rw [traffic.received_work_of_ne none other, h.handed_eq]

/-- The next event is emitted while the pipeline is enabled. -/
theorem emit (h : c.Inv owner events s disk misses traffic writer link ledger)
    (on : c.bench.pipeline.enabled = true) (now : Instant) (elapsed : Nat) :
    ∃ traffic', (c.next owner (.emit now elapsed)).Inv owner events s disk misses traffic' writer link
      ledger := by
  obtain ⟨bench, ahead⟩ := c
  cases ahead with
  | nil => exact ⟨traffic, h⟩
  | cons e rest =>
    let tracer : Tracer := ⟨owner, DemoEvent.interface⟩
    obtain ⟨room, conserved⟩ := h.conserved
    obtain ⟨pipeline, handlers⟩ :=
      bench.offerAfter_keeps elapsed now tracer e.toEvent.method e.toEvent.args
    obtain ⟨-, calls, -⟩ := traffic.emit_keeps tracer now e.toEvent.method e.toEvent.args elapsed
    refine ⟨traffic.next (.emit tracer now e.toEvent.method e.toEvent.args elapsed), ?_⟩
    refine ⟨?_, ?_, ?_, ⟨room, conserved.next _⟩, h.attends.emit _ _ _ _ _, ?_, h.kept,
      Traffic.accepted_sublist_next h.order _, ?_⟩
    · rw [traffic.pipeline_emit, h.pipeline_eq]
      exact pipeline.symm
    · obtain ⟨others, same, logging⟩ := h.staffed
      exact ⟨others, handlers.trans same, logging⟩
    · show Pipeline.Within (bench.offerAfter _ _ _ _ _).handlers.length
        (bench.offerAfter _ _ _ _ _).pipeline
      rw [pipeline, handlers]
      exact h.within.emit _ _
    · rw [h.handed_eq, Traffic.received, Traffic.received, Traffic.handed, Traffic.handed, calls]
    · rw [Traffic.emitted_emit (by rw [h.pipeline_eq]; exact on), List.map_append, List.append_assoc]
      exact h.told

/-- Any number of steps of the dispatcher. -/
theorem runFor (h : c.Inv owner events s disk misses traffic writer link ledger) (rounds : Nat) :
    ∃ traffic' writer' link' ledger', Inv owner events s disk misses traffic' writer' link' ledger'
      ⟨c.bench.runFor rounds, c.ahead⟩ := by
  induction rounds generalizing c traffic writer link ledger with
  | zero => exact ⟨_, _, _, _, h⟩
  | succ rounds ih =>
    obtain ⟨_, _, _, _, stepped⟩ := h.dispatch
    rw [Bench.runFor_succ]
    exact ih stepped

/-- The pipeline is disabled. -/
theorem disable (h : c.Inv owner events s disk misses traffic writer link ledger)
    (working : c.bench.pipeline.isWorking) :
    Inv owner events s disk misses (traffic.next (.enable false)) writer link ledger
      ⟨{ c.bench with pipeline := c.bench.pipeline.enable false }, c.ahead⟩ := by
  obtain ⟨room, conserved⟩ := h.conserved
  obtain ⟨delivery, running⟩ := working
  have free : traffic.pipeline.isStopping = false := by
    rw [h.pipeline_eq, Pipeline.isStopping, running]
    rfl
  have disabled : traffic.next (.enable false) =
      { traffic with pipeline := traffic.pipeline.enable false } := by
    simp only [Traffic.next, free, Bool.false_eq_true, if_false]
  have attends := h.attends.enable false
  have conserved := conserved.next (.enable false)
  rw [disabled] at attends conserved ⊢
  exact ⟨congrArg (Pipeline.enable false) h.pipeline_eq, h.staffed, h.within.enable false,
    ⟨room, conserved⟩, attends, h.handed_eq, h.kept, h.order, h.told⟩

end Inv

/-! ## Open pipelines -/

/-- The pipeline is enabled, and its dispatcher is at work. -/
def Open (c : Emission) : Prop := c.bench.pipeline.enabled = true ∧ c.bench.pipeline.isWorking

variable {owner : String} {events : List DemoEvent} {s : Segment} {disk : Disk} {misses : Nat}
  {c : Emission}

/-- What holds throughout, whatever the traffic and the writer have come to. -/
def Sound (owner : String) (events : List DemoEvent) (s : Segment) (disk : Disk) (misses : Nat)
    (c : Emission) : Prop :=
  c.Open ∧ ∃ traffic writer link ledger,
    c.Inv owner events s disk misses traffic writer link ledger

theorem Sound.next (h : c.Sound owner events s disk misses) (action : Action) :
    (c.next owner action).Sound owner events s disk misses := by
  obtain ⟨⟨on, working⟩, traffic, writer, link, ledger, inv⟩ := h
  cases action with
  | emit now elapsed =>
    obtain ⟨traffic', inv'⟩ := inv.emit on now elapsed
    refine ⟨?_, traffic', writer, link, ledger, inv'⟩
    obtain ⟨bench, ahead⟩ := c
    cases ahead with
    | nil => exact ⟨on, working⟩
    | cons e rest =>
      obtain ⟨pipeline, -⟩ := bench.offerAfter_keeps elapsed now ⟨owner, DemoEvent.interface⟩
        e.toEvent.method e.toEvent.args
      simp only [Emission.next, Open, pipeline]
      have emitted := bench.pipeline.emitted elapsed
        (Tracer.record ⟨owner, DemoEvent.interface⟩ now e.toEvent.method e.toEvent.args)
      generalize bench.pipeline.emit elapsed _ = answer at emitted ⊢
      cases emitted <;> exact ⟨on, working⟩
  | dispatch =>
    refine ⟨?_, inv.dispatch⟩
    obtain ⟨-, -, failed, same⟩ := Bench.Manned.advance ⟨writer, link, inv.staffed⟩
    have still := (Pipeline.owed_work working true failed).1
    have worked := c.bench.pipeline.worked true failed
    simp only [Emission.next, Open, same]
    refine ⟨?_, still⟩
    generalize c.bench.pipeline.work true failed = p at worked
    cases worked <;> exact on

theorem Sound.run (h : c.Sound owner events s disk misses) (actions : List Action) :
    (c.run owner actions).Sound owner events s disk misses := by
  induction actions generalizing c with
  | nil => exact h
  | cons action rest ih => exact ih (h.next action)

/-- A demonstration starts with an enabled pipeline and a writer that was handed nothing. -/
theorem Sound.start {settings : Settings} {link : Link} (writes : settings.writeEnabled = true)
    (segment : link.store = .segment s disk) (sole : s.Sole disk) (owner : String) (verbose : Bool)
    (now : Instant) (count : UInt64) :
    (start settings verbose now link count).Sound owner (DemoEvent.sequence count) s disk
      (link.failures .lastSerial) := by
  have kept := Ledger.Kept.create segment sole
  rw [← writes] at kept
  let p := (Emission.start settings verbose now link count).bench.pipeline
  have opened : (Emission.start settings verbose now link count).Open := by
    cases verbose <;> exact ⟨rfl, none, rfl⟩
  have idle : p.isIdle := by cases verbose <;> exact ⟨rfl, rfl⟩
  have registered : Demonstration.writerId ∈ p.registry.handlers := by
    cases verbose
    · exact List.mem_singleton_self _
    · exact List.mem_cons_self
  have lost : p.loss.total = 0 := by cases verbose <;> rfl
  have delivered : p.delivered = 0 := by cases verbose <;> rfl
  have conserved : (Traffic.since p).Conserved p.queue.capacity :=
    ⟨rfl, idle.1.symm, by simp [Traffic.since, Traffic.taken, delivered, idle.2], lost, rfl⟩
  refine ⟨opened, .since p, .create settings.writeEnabled, link, .empty, rfl, ?_, ?_,
    ⟨_, conserved⟩, .since idle registered, rfl, kept, List.Sublist.refl _, rfl⟩
  · cases verbose
    · exact ⟨[], rfl, List.forall_mem_nil _⟩
    · exact ⟨[.logging .info], rfl, List.forall_mem_singleton.mpr ⟨.info, rfl⟩⟩
  · refine ⟨by cases verbose <;> exact Nat.le_refl _, ?_⟩
    intro d held
    cases idle.2.symm.trans held

/-- Nothing is lost while the demonstration is closed. -/
theorem Sound.loss_close (h : c.Sound owner events s disk misses) :
    c.close.pipeline.loss = c.bench.pipeline.loss := by
  obtain ⟨⟨-, working⟩, _, writer, link, _, inv⟩ := h
  exact Bench.Manned.loss_runFor ⟨writer, link, (inv.disable working).staffed⟩ _

/-- When all has been emitted and the queue is empty, closing the demonstration leaves nothing
undone. -/
theorem Sound.close (h : c.Sound owner events s disk misses)
    (drained : c.bench.pipeline.pending = 0) :
    ∃ traffic writer link ledger,
      Inv owner events s disk misses traffic writer link ledger ⟨c.close, c.ahead⟩ ∧
        c.close.pipeline.isIdle := by
  obtain ⟨⟨-, working⟩, traffic, writer, link, ledger, inv⟩ := h
  have closing := inv.disable working
  have empty : (c.bench.pipeline.enable false).queue.items = [] :=
    List.eq_nil_of_length_eq_zero drained
  have nearer (p : Pipeline) (failed : Bool) (empty : p.queue.items = []) :=
    Pipeline.owed_work_of_empty empty true failed
  have idle : c.close.pipeline.isIdle :=
    Bench.Manned.isIdle_runFor nearer ⟨writer, link, closing.staffed⟩ empty
      closing.within.owed_le
  obtain ⟨traffic', writer', link', ledger', closed⟩ := closing.runFor _
  exact ⟨traffic', writer', link', ledger', closed, idle⟩

theorem run_append (owner : String) (c : Emission) (before after : List Action) :
    c.run owner (before ++ after) = (c.run owner before).run owner after := List.foldl_append

theorem run_dispatch (owner : String) (rounds : Nat) (c : Emission) :
    c.run owner (List.replicate rounds .dispatch) = ⟨c.bench.runFor rounds, c.ahead⟩ := by
  induction rounds generalizing c with
  | zero => rfl
  | succ rounds ih =>
    rw [Bench.runFor_succ]
    exact ih (c.next owner .dispatch)

/-- A dispatcher that is at work and has nothing to do takes in the next event without loss, and
delivers it. -/
theorem Sound.emit_run (h : c.Sound owner events s disk misses) (idle : c.bench.pipeline.isIdle)
    {e : DemoEvent} {rest : List DemoEvent} (next : c.ahead = e :: rest) :
    ∃ actions, let c' := c.run owner actions
      c' = ⟨c.bench.emit ⟨owner, DemoEvent.interface⟩ e.toEvent.method e.toEvent.args, rest⟩ ∧
        c'.bench.pipeline.isIdle ∧ c'.bench.pipeline.loss = c.bench.pipeline.loss := by
  let tracer : Tracer := ⟨owner, DemoEvent.interface⟩
  let offered := c.bench.offer tracer e.toEvent.method e.toEvent.args
  let rounds := (offered.pipeline.pending + 2) * (2 * offered.handlers.length + 3)
  have first : c.next owner (.emit c.bench.now 0) = ⟨offered, rest⟩ := by
    rw [Emission.next, next]
    rfl
  have sound := h.next (.emit c.bench.now 0)
  rw [first] at sound
  obtain ⟨⟨-, working⟩, traffic, writer, link, ledger, inv⟩ := sound
  have manned : offered.Manned := ⟨writer, link, inv.staffed⟩
  have nearer (p : Pipeline) (failed : Bool) (working : p.isWorking) :=
    Pipeline.owed_work working true failed
  have kept : (c.bench.offer tracer e.toEvent.method e.toEvent.args).pipeline.loss =
      c.bench.pipeline.loss := by
    obtain ⟨pipeline, -⟩ :=
      c.bench.offerAfter_keeps 0 c.bench.now tracer e.toEvent.method e.toEvent.args
    have emitted := c.bench.pipeline.emitted 0
      (tracer.record c.bench.now e.toEvent.method e.toEvent.args)
    rw [Bench.offer_eq, pipeline]
    generalize c.bench.pipeline.emit 0 _ = answer at emitted ⊢
    cases emitted with
    | ignored | accepted => rfl
    | rejected _ full =>
      have room := c.bench.pipeline.queue.capacity_pos
      rw [← full, Pipeline.pending, idle.1] at room
      cases room
  refine ⟨.emit c.bench.now 0 :: List.replicate rounds .dispatch, ?_⟩
  have run : c.run owner (.emit c.bench.now 0 :: List.replicate rounds .dispatch) =
      ⟨offered.runFor rounds, rest⟩ := by
    change (c.next owner (.emit c.bench.now 0)).run owner _ = _
    rw [first, run_dispatch]
  rw [run]
  exact ⟨rfl, manned.isIdle_runFor nearer working inv.within.owed_le,
    (manned.loss_runFor rounds).trans kept⟩

/-- Emitting the events one after the other, each delivered before the next one, is one way to go, on
which none is lost. -/
theorem Sound.exists_run (h : c.Sound owner events s disk misses) (idle : c.bench.pipeline.isIdle) :
    ∃ actions, let c' := c.run owner actions
      c'.ahead = [] ∧ c'.bench.pipeline.pending = 0 ∧
        c'.close.pipeline.loss = c.bench.pipeline.loss ∧
        c'.close = Demonstration.run owner c.ahead c.bench := by
  generalize ahead : c.ahead = waiting
  induction waiting generalizing c with
  | nil => exact ⟨[], ahead, congrArg List.length idle.1, h.loss_close, rfl⟩
  | cons e rest ih =>
    obtain ⟨first, there, idle', kept⟩ := h.emit_run idle ahead
    have sound := h.run first
    obtain ⟨later, all, drained, kept', closed⟩ := ih sound idle' (by rw [there])
    refine ⟨first ++ later, ?_⟩
    rw [run_append]
    refine ⟨all, drained, kept'.trans kept, ?_⟩
    rw [closed, there]
    rfl

/-- When nothing is left to do, each record has been handed to the writer or was lost. -/
theorem Inv.handed_add_lost {traffic : Traffic} {writer : Writer} {link : Link} {ledger : Ledger}
    (h : c.Inv owner events s disk misses traffic writer link ledger) (all : c.ahead = [])
    (idle : c.bench.pipeline.isIdle) :
    ledger.handed.length + c.bench.pipeline.loss.total = events.length ∧
      (ledger.stored.map Record.message).Sublist (events.map (DemoEvent.message owner)) := by
  obtain ⟨room, conserved⟩ := h.conserved
  have accepted := h.attends.accepted_eq
  rw [h.pipeline_eq, Pipeline.awaited, idle.1, idle.2, Option.elim_none, List.append_nil,
    List.append_nil, ← h.handed_eq] at accepted
  have told := h.told
  rw [all, List.map_nil, List.append_nil] at told
  constructor
  · have lost := conserved.lost_eq
    have emitted := conserved.emitted_eq
    rw [h.pipeline_eq] at lost
    have length := congrArg List.length told
    rw [List.length_map, List.length_map] at length
    rw [← length, emitted, lost, accepted]
  · have order := h.order.map Record.message
    rw [told, accepted] at order
    exact h.kept.messages.trans order

end Emission

namespace Demonstration

/-- A demonstration over a store `s`, alone with its file, when `misses` look-ups failed, is accounted
for: `stored` are the records that the writer has put into the store. -/
structure Accounted (owner : String) (count : UInt64) (s : Segment) (disk : Disk) (misses : Nat)
    (b : Bench) (stored : List Record) (s' : Segment) (disk' : Disk) : Prop where
  store_eq : store? b = some (.segment s' disk')
  emitted_eq : (summary count b).emitted = count.toNat + 2
  /-- The writer breaks off on the records for which no serial number is left. -/
  sum_eq :
    (summary count b).persisted + (summary count b).failed + (summary count b).dropped +
      ((summary count b).emitted - (summary count b).dropped - misses -
        (UInt64.size - 1 - (s.base disk).toNat)) = (summary count b).emitted
  persisted_eq : (summary count b).persisted = stored.length
  messages : (stored.map Record.message).Sublist
    ((DemoEvent.sequence count).map (DemoEvent.message owner))
  rising : (stored.map (·.serial)).Pairwise (· < ·)
  above : ∀ r ∈ stored, s.base disk < r.serial
  consecutive : (summary count b).failed = 0 →
    stored.map (·.serial.toNat) = List.range' ((s.base disk).toNat + 1) stored.length
  /-- The documents come behind all that was in the file, if the store has cut nothing off. -/
  bytes_eq : disk'.cutsOf s.number = disk.cutsOf s.number →
    s'.bytes disk' = s.bytes disk ++ Frame.encodeAll (stored.map .ofRecord)
  /-- In a file of whole frames they are found, and give the records back. -/
  found : disk'.cutsOf s.number = disk.cutsOf s.number →
    (∃ passed, Frame.Passes (s.bytes disk) 0 passed (s.bytes disk).length) →
      ∃ docs, s'.held disk' = s.held disk ++ docs ∧
        docs.map Document.toRecord = stored.map .ok

/-- While there are serial numbers left, the counts make up all that was emitted. -/
theorem Accounted.sum_of_enough {owner : String} {count : UInt64} {s : Segment} {disk : Disk}
    {misses : Nat} {b : Bench} {stored : List Record} {s' : Segment} {disk' : Disk}
    (h : Accounted owner count s disk misses b stored s' disk')
    (enough : (s.base disk).toNat + (summary count b).emitted <
      UInt64.size + misses + (summary count b).dropped) :
    (summary count b).persisted + (summary count b).failed + (summary count b).dropped =
      (summary count b).emitted := by
  have sum := h.sum_eq
  omega

/-- What is closed when all has been emitted and the queue is empty is accounted for. -/
theorem Accounted.of_close {owner : String} {count : UInt64} {s : Segment} {disk : Disk}
    {misses : Nat} {c : Emission}
    (sound : c.Sound owner (DemoEvent.sequence count) s disk misses) (all : c.ahead = [])
    (drained : c.bench.pipeline.pending = 0) :
    ∃ stored s' disk', Accounted owner count s disk misses c.close stored s' disk' := by
  obtain ⟨traffic, writer, link, ledger, inv, idle⟩ := sound.close drained
  obtain ⟨handed, messages⟩ := inv.handed_add_lost all idle
  have length : (DemoEvent.sequence count).length = count.toNat + 2 := by
    simp [DemoEvent.sequence]
  rw [length] at handed
  change ledger.handed.length + c.close.pipeline.loss.total = _ at handed
  obtain ⟨others, handlers, -⟩ := inv.staffed
  have writes : c.close.handlers[writerId]? = some (.durable writer link) := by
    rw [show c.close.handlers = _ from handlers]
    rfl
  have counts : summary count c.close =
      ⟨count.toNat + 2, writer.written, writer.failed, c.close.pipeline.loss.total⟩ := by
    simp only [summary, writes]
  obtain ⟨s', disk', store, grown, -⟩ := inv.kept.store
  refine ⟨ledger.stored, s', disk', ?_, by rw [counts], ?_, ?_, messages, inv.kept.rising.1,
    inv.kept.rising.2, ?_, grown.bytes_eq, ?_⟩
  · rw [store?, writes, Option.some_inj]
    exact store
  · have total := inv.kept.sum_eq
    have left : ledger.handed.length = count.toNat + 2 - c.close.pipeline.loss.total := by omega
    rw [counts]
    simp only [← left]
    omega
  · rw [counts]
    exact inv.kept.written_eq
  · intro none_failed
    rw [counts] at none_failed
    exact inv.kept.serials_eq none_failed
  · rintro uncut ⟨passed, whole⟩
    have decoded : Document.toRecord ∘ Document.ofRecord = Except.ok := by
      funext r
      rw [Function.comp_apply, Document.toRecord_ofRecord]
    refine ⟨ledger.stored.map .ofRecord, ?_, ?_⟩
    · rw [grown.held_eq whole uncut, DemoEvent.reread_stored messages]
    · rw [List.map_map, decoded]

/-- Demonstrations account for every record. The events are emitted one after the other, at any times,
and the dispatcher takes any steps in between. Once the queue is empty, the pipeline is disabled and
the dispatcher ends. The records that were stored, that failed and that were lost then make up all
that were emitted, but for those on which the writer broke off because no serial number was left.
What was stored tells a part of the events in their order, under rising numbers from above the
highest one in the file, which follow on one another if nothing failed. It stands at the end of the
file. To deliver each event before the next one is emitted is one way to go, on which no record is
lost. -/
theorem accounts {settings : Settings} {link : Link} {s : Segment} {disk : Disk}
    (writes : settings.writeEnabled = true) (segment : link.store = .segment s disk)
    (sole : s.Sole disk) (verbose : Bool) (now : Instant) (owner : String) (count : UInt64) :
    let first := Emission.start settings verbose now link count
    (∀ actions, let c := first.run owner actions
      c.ahead = [] → c.bench.pipeline.pending = 0 →
        ∃ stored s' disk', Accounted owner count s disk (link.failures .lastSerial) c.close stored s'
          disk') ∧
    ∃ actions, let c := first.run owner actions
      c.ahead = [] ∧ c.bench.pipeline.pending = 0 ∧
        c.close = run owner (DemoEvent.sequence count) first.bench ∧
        (summary count c.close).dropped = 0 := by
  intro first
  have sound := Emission.Sound.start writes segment sole owner verbose now count
  refine ⟨fun actions all drained => Accounted.of_close (sound.run actions) all drained, ?_⟩
  have idle : first.bench.pipeline.isIdle := by cases verbose <;> exact ⟨rfl, rfl⟩
  have new : first.bench.pipeline.loss.total = 0 := by cases verbose <;> rfl
  obtain ⟨actions, all, drained, loss, closed⟩ := sound.exists_run idle
  have dropped (b : Bench) : (summary count b).dropped = b.pipeline.loss.total := by
    unfold summary
    split <;> rfl
  exact ⟨actions, all, drained, closed, by rw [dropped, loss, new]⟩

/-- The file holds a document with the highest serial number that there is. The writer breaks off on
every record, and no count tells of that. -/
theorem accounts_when_exhausted :
    let t : Instant := ⟨0, 0, by decide, by decide, by decide, by decide⟩
    let d : Document := ⟨t, 0xffffffffffffffff, .null⟩
    ∃ s disk, Segment.openAt ⟨"traces"⟩ 1000 (.ofFile (Frame.encode d)) = (.ok s, disk) ∧
      summary 1 (run "shop" (DemoEvent.sequence 1)
        (start .standard true t (.reliable (.segment s disk)))) = ⟨3, 0, 0, 0⟩ := by
  intro t d
  obtain ⟨s, disk, opened, same⟩ :=
    Segment.openAt_of_file (Disk.file_ofFile (Frame.encode d)) 1000
  have file : s.bytes disk = Frame.encode d := same
  have found : s.held disk = [d] := by
    have back : d.ReadsBack := by
      rw [Document.readsBack_iff (show d.body.Sorted from trivial)]
      exact ⟨Nat.zero_le _, List.forall_mem_nil _⟩
    have fits : d.Fits := by decide +kernel
    rw [Segment.held, file, ← List.flatMap_singleton Frame.encode d]
    exact Frame.documents_encodeAll (List.forall_mem_singleton.mpr ⟨back, fits⟩)
  have base : (s.base disk).toNat = 0xffffffffffffffff := by
    rw [Segment.base, found]
    rfl
  obtain ⟨all, actions, ahead, drained, closed, dropped⟩ :=
    @accounts .standard (.reliable (.segment s disk)) s disk rfl rfl (.of_openAt opened) true t
      "shop" 1
  obtain ⟨stored, s', disk', accounted⟩ := all actions ahead drained
  have emitted := accounted.emitted_eq
  have sum := accounted.sum_eq
  have none_misses : (Link.reliable (.segment s disk)).failures .lastSerial = 0 := rfl
  rw [closed] at emitted sum dropped
  rw [base, dropped, emitted, none_misses] at sum
  refine ⟨s, disk, opened, ?_⟩
  change summary 1 (run "shop" (DemoEvent.sequence 1)
    (Emission.start .standard true t (.reliable (.segment s disk)) 1).bench) = _
  generalize summary 1 _ = counts at emitted sum dropped ⊢
  obtain ⟨emitted', persisted, failed, lost⟩ := counts
  have one : (1 : UInt64).toNat = 1 := rfl
  simp only [one, UInt64.size] at emitted sum dropped
  rw [EmitSummary.mk.injEq]
  omega

end Demonstration

end TraceJournal
