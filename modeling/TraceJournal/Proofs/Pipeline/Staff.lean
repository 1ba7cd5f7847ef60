import TraceJournal.CommandLine.Demonstration
import TraceJournal.Proofs.Pipeline.Passage

/-!
# Benches with a writer that never wait

The handlers of a demonstration are a writer and perhaps one that logs. None of them waits at a gate,
so that the dispatcher takes a step whenever it has something to do, and comes to rest.
-/

namespace TraceJournal

namespace Pipeline

variable {p : Pipeline} {n : Nat}

/-- At most `n` handlers are registered, and at most as many are still to have the record that is
being delivered. -/
structure Within (n : Nat) (p : Pipeline) : Prop where
  registered : p.registry.handlers.length ≤ n
  remaining : ∀ d, p.delivery? = some d → d.remaining.length ≤ n

theorem Within.work (h : p.Within n) (ends failed : Bool) : (p.work ends failed).Within n := by
  have worked := p.worked ends failed
  have remaining := h.remaining
  generalize p.work ends failed = q at worked ⊢
  cases worked with
  | rests => exact h
  | stops =>
    refine ⟨h.registered, ?_⟩
    intro d held
    cases held
  | takes =>
    refine ⟨h.registered, ?_⟩
    intro d held
    cases held
    exact h.registered
  | @calls cancelled d g rest _ held later =>
    refine ⟨h.registered, ?_⟩
    intro d' held'
    cases held'
    have short := remaining d (by rw [delivery?, held, Option.bind_some])
    rw [later, List.length_cons] at short
    exact Nat.le_of_succ_le short
  | finishes =>
    refine ⟨h.registered, ?_⟩
    intro d held
    cases held

theorem Within.emit (h : p.Within n) (elapsed : Nat) (record : Record) :
    (p.emit elapsed record).2.Within n := by
  have emitted := p.emitted elapsed record
  generalize p.emit elapsed record = answer at emitted ⊢
  cases emitted <;> exact ⟨h.registered, h.remaining⟩

theorem Within.enable (h : p.Within n) (on : Bool) : (p.enable on).Within n :=
  ⟨h.registered, by rw [delivery?_enable]; exact h.remaining⟩

/-- So many steps of the dispatcher are enough. -/
theorem Within.owed_le (h : p.Within n) : p.owed ≤ (p.pending + 2) * (2 * n + 3) := by
  have waiting : p.pending * (p.registry.handlers.length + 2) ≤ p.pending * (2 * n + 3) := by
    refine Nat.mul_le_mul_left _ ?_
    have := h.registered
    omega
  rw [owed, Nat.add_mul]
  cases held : p.delivery? with
  | none =>
    simp only [Option.elim_none]
    omega
  | some d =>
    have := h.remaining d held
    simp only [Option.elim_some]
    omega

end Pipeline

namespace Bench

variable {b : Bench} {writer : Writer} {link : Link}

/-- The handlers are a writer with its link, and others that only log. -/
def Staffed (writer : Writer) (link : Link) (b : Bench) : Prop :=
  ∃ others, b.handlers = .durable writer link :: others ∧
    ∀ h ∈ others, ∃ level, h = .logging level

/-- What a step of the dispatcher comes to. -/
inductive Stepped (writer : Writer) (link : Link) (b : Bench) : Option Bench → Prop where
  | rests : b.pipeline.next true = .nothing → Stepped writer link b none
  /-- The writer gets a record. -/
  | hands (record : Record) (error : Option HandlerError) {b' : Bench} :
    b.pipeline.next true = .call Demonstration.writerId record →
      b'.pipeline = b.pipeline.work true error.isSome →
      b'.handlers.length = b.handlers.length →
      b'.Staffed (writer.handle record link).2.1 (writer.handle record link).2.2 →
      Stepped writer link b (some b')
  /-- It gets nothing. -/
  | passes {b' : Bench} :
    (∀ record, b.pipeline.next true ≠ .call Demonstration.writerId record) →
      b'.pipeline = b.pipeline.work true false → b'.handlers.length = b.handlers.length →
      b'.Staffed writer link → Stepped writer link b (some b')

namespace Staffed

theorem stepped (staffed : b.Staffed writer link) : b.Stepped writer link b.step? := by
  obtain ⟨others, handlers, logging⟩ := staffed
  cases next : b.pipeline.next true with
  | nothing =>
    rw [step?, next]
    exact .rests next
  | call id record =>
    have answers (failed : Bool) : b.pipeline.work true failed = b.pipeline.answered failed := by
      rw [Pipeline.work, next]
    rw [step?, next]
    cases id with
    | zero =>
      have found : b.handlers[0]? = some (.durable writer link) := by
        rw [handlers, List.getElem?_cons_zero]
      have replaced (w : Writer) (l : Link) : (b.setHandler 0 (.durable w l)).Staffed w l :=
        ⟨others, by rw [setHandler, handlers, List.set_cons_zero], logging⟩
      have size (h : Handler) : (b.setHandler 0 h).handlers.length = b.handlers.length :=
        List.length_set
      have staffed := replaced (writer.handle record link).2.1 (writer.handle record link).2.2
      simp only [call?, found]
      rcases answer : writer.handle record link with ⟨e | _ | e, writer', link'⟩ <;>
        rw [answer] at staffed
      · exact .hands record (some e) next (answers true).symm (size _) (by rw [answer]; exact staffed)
      · exact .hands record none next (answers false).symm (size _) (by rw [answer]; exact staffed)
      · exact .hands record none next (answers false).symm (size _) (by rw [answer]; exact staffed)
    | succ id =>
      have other (r : Record) : b.pipeline.next true ≠ .call Demonstration.writerId r := by
        rw [next]
        rintro ⟨⟩
      cases found : b.handlers[id + 1]? with
      | none =>
        simp only [call?, found]
        exact .passes other (answers false).symm rfl ⟨others, handlers, logging⟩
      | some h =>
        have inside := found
        rw [handlers, List.getElem?_cons_succ] at inside
        obtain ⟨level, rfl⟩ := logging h (List.mem_of_getElem? inside)
        simp only [call?, found]
        exact .passes other (answers false).symm rfl ⟨others, handlers, logging⟩
  | stop | take | finish =>
    rw [step?, next]
    refine .passes ?_ rfl rfl ⟨others, handlers, logging⟩
    intro record call
    rw [next] at call
    cases call

end Staffed

/-! ## Coming to rest -/

/-- The bench after a step of the dispatcher, if it can do one. -/
def advance (b : Bench) : Bench := b.step?.getD b

theorem runFor_of_rest (rests : b.step? = none) (rounds : Nat) : b.runFor rounds = b := by
  cases rounds with
  | zero => rfl
  | succ rounds => rw [runFor, rests]

/-- Running the dispatcher is taking one step after the other. -/
theorem runFor_succ (rounds : Nat) (b : Bench) : b.runFor (rounds + 1) = b.advance.runFor rounds := by
  rw [advance]
  cases stepped : b.step? with
  | none => rw [Option.getD_none, runFor_of_rest stepped, runFor_of_rest stepped]
  | some b' => rw [runFor, stepped, Option.getD_some]

/-- The bench is staffed with some writer and loggers. -/
def Manned (b : Bench) : Prop := ∃ writer link, b.Staffed writer link

theorem Manned.advance (manned : b.Manned) :
    b.advance.Manned ∧ b.advance.handlers.length = b.handlers.length ∧
      ∃ failed, b.advance.pipeline = b.pipeline.work true failed := by
  obtain ⟨writer, link, staffed⟩ := manned
  have stepped := staffed.stepped
  rw [Bench.advance]
  generalize b.step? = answer at stepped ⊢
  cases stepped with
  | rests rests => exact ⟨⟨writer, link, staffed⟩, rfl, false, by rw [Pipeline.work, rests]; rfl⟩
  | hands record error _ same size staffed => exact ⟨⟨_, _, staffed⟩, size, _, same⟩
  | passes _ same size staffed => exact ⟨⟨_, _, staffed⟩, size, _, same⟩

/-- Nothing is lost while the dispatcher is run. -/
theorem Manned.loss_runFor (manned : b.Manned) (rounds : Nat) :
    (b.runFor rounds).pipeline.loss = b.pipeline.loss := by
  induction rounds generalizing b with
  | zero => rfl
  | succ rounds ih =>
    obtain ⟨manned', -, failed, worked⟩ := manned.advance
    rw [runFor_succ, ih manned', worked]
    have worked := b.pipeline.worked true failed
    generalize b.pipeline.work true failed = p at worked ⊢
    cases worked <;> rfl

/-- A dispatcher that comes nearer to its rest with every step gets there. -/
theorem Manned.isIdle_runFor {keeps : Pipeline → Prop}
    (nearer : ∀ p failed, keeps p →
      keeps (p.work true failed) ∧ (p.work true failed).owed ≤ p.owed - 1)
    {rounds : Nat} (manned : b.Manned) (kept : keeps b.pipeline)
    (enough : b.pipeline.owed ≤ rounds) : (b.runFor rounds).pipeline.isIdle := by
  induction rounds generalizing b with
  | zero => exact Pipeline.isIdle_of_owed (Nat.le_zero.mp enough)
  | succ rounds ih =>
    obtain ⟨manned', -, failed, worked⟩ := manned.advance
    obtain ⟨kept', le⟩ := nearer _ failed kept
    rw [runFor_succ]
    rw [← worked] at kept' le
    exact ih manned' kept' (by omega)

end Bench

end TraceJournal
