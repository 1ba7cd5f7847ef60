import Mathlib.Algebra.GroupWithZero.Nat
import TraceJournal.Pipeline.Loss

/-!
# Reports of losses

Every loss is reported once, or is still pending. A report is made with the loss that reaches the
threshold, or once the interval is over; no report without one of these, and no loss goes without a
report then. So there are few reports, however many losses come: each takes as many losses as the
threshold tells, or a whole interval.
-/

namespace TraceJournal

/-- A loss that is counted: when the clock is read to see how much time has passed since the
previous report, and when it is read again, should a report be made. Times are in the unit of the
interval. -/
structure LossCall where
  checked : Nat
  noted : Nat
  checked_le_noted : checked ≤ noted

namespace LossCall

/-- The calls are made one after the other, from a time on, and the clock never goes back. -/
def InOrder (start : Nat) : List LossCall → Prop
  | [] => True
  | call :: rest => start ≤ call.checked ∧ InOrder call.noted rest

/-- The time of the last one of some calls, or the time from which on they are made. -/
def finish (start : Nat) (calls : List LossCall) : Nat :=
  calls.foldl (fun _ call => call.noted) start

instance decidableInOrder : (start : Nat) → (calls : List LossCall) →
    Decidable (InOrder start calls)
  | _, [] => inferInstanceAs (Decidable True)
  | _, call :: rest =>
    have := decidableInOrder call.noted rest
    inferInstanceAs (Decidable (_ ∧ _))

end LossCall

/-- A monitor of losses with the time of its latest report, at first with that of its creation. -/
structure LossWatch where
  monitor : LossMonitor
  last : Nat

namespace LossWatch

/-- The monitor as it is created. -/
def create (interval threshold start : Nat) : LossWatch := ⟨.create interval threshold, start⟩

/-- The report that a call makes, if any. -/
def report (w : LossWatch) (call : LossCall) : Option LossReport :=
  (w.monitor.record (call.checked - w.last)).1

/-- The monitor after a call. -/
def next (w : LossWatch) (call : LossCall) : LossWatch where
  monitor := (w.monitor.record (call.checked - w.last)).2
  last := if (w.report call).isSome then call.noted else w.last

/-- The monitor after some calls. -/
def run (w : LossWatch) (calls : List LossCall) : LossWatch := calls.foldl next w

/-- The reports that some calls make. -/
def reports (w : LossWatch) : List LossCall → List LossReport
  | [] => []
  | call :: rest => (w.report call).toList ++ (w.next call).reports rest

/-! ## One call -/

/-- What a call comes to. -/
inductive Called (w : LossWatch) (call : LossCall) : Option LossReport → LossWatch → Prop where
  /-- Neither the interval is over nor the threshold reached. -/
  | quiet :
    call.checked - w.last < w.monitor.interval → w.monitor.pending + 1 < w.monitor.threshold →
      Called w call none
        ⟨{ w.monitor with
            total := w.monitor.total + 1
            pending := w.monitor.pending + 1 }, w.last⟩
  /-- All pending losses are reported, this one included. -/
  | told :
    ¬(call.checked - w.last < w.monitor.interval ∧
        w.monitor.pending + 1 < w.monitor.threshold) →
      Called w call
        (some ⟨w.monitor.pending + 1, w.monitor.total + 1, call.checked - w.last⟩)
        ⟨{ w.monitor with total := w.monitor.total + 1, pending := 0 }, call.noted⟩

theorem called (w : LossWatch) (call : LossCall) : w.Called call (w.report call) (w.next call) := by
  by_cases silent : call.checked - w.last < w.monitor.interval ∧
      w.monitor.pending + 1 < w.monitor.threshold
  · have unreported : w.report call = none := by
      simp only [report, LossMonitor.record, if_pos silent]
    simp only [next, unreported, LossMonitor.record, if_pos silent, Option.isSome_none,
      Bool.false_eq_true, if_false]
    exact .quiet silent.1 silent.2
  · have reported : w.report call =
        some ⟨w.monitor.pending + 1, w.monitor.total + 1, call.checked - w.last⟩ := by
      simp only [report, LossMonitor.record, if_neg silent]
    simp only [next, reported, LossMonitor.record, if_neg silent, Option.isSome_some, if_true]
    exact .told silent

/-- No report is made exactly if neither the interval is over nor the threshold reached. -/
theorem report_eq_none_iff (w : LossWatch) (call : LossCall) :
    w.report call = none ↔
      call.checked - w.last < w.monitor.interval ∧
        w.monitor.pending + 1 < w.monitor.threshold := by
  have called := w.called call
  generalize w.report call = answer at called ⊢
  generalize w.next call = w' at called
  cases called with
  | quiet young few => exact iff_of_true rfl ⟨young, few⟩
  | told due => exact iff_of_false (Option.some_ne_none _) due

/-- A report tells of all pending losses, of all losses so far, and of the time that has passed. -/
theorem report_eq_some {w : LossWatch} {call : LossCall} {report : LossReport}
    (h : w.report call = some report) :
    report = ⟨w.monitor.pending + 1, w.monitor.total + 1, call.checked - w.last⟩ := by
  have called := w.called call
  generalize w.next call = w' at called
  rw [h] at called
  cases called
  rfl

/-! ## Any number of calls -/

/-- What holds after some calls that have made some reports: `early` of these came with the loss
that reached the threshold, and `late` ones after the interval. -/
structure Tallies (w : LossWatch) (interval threshold start calls : Nat)
    (reports : List LossReport) (early late : Nat) : Prop where
  interval_eq : w.monitor.interval = interval
  threshold_eq : w.monitor.threshold = threshold
  pending_lt : w.monitor.pending < threshold
  total_eq : w.monitor.total = calls
  sum_eq : (reports.map LossReport.lost).sum + w.monitor.pending = calls
  length_eq : reports.length = early + late
  early_le : early * threshold + w.monitor.pending ≤ calls
  start_le : start ≤ w.last
  late_le : late * interval ≤ w.last - start
  /-- Without an interval every loss is reported at once. -/
  length_of_zero : interval = 0 → reports.length = calls

namespace Tallies

variable {w : LossWatch} {interval threshold start calls early late : Nat}
  {reports : List LossReport}

theorem create (interval threshold start : Nat) :
    (LossWatch.create interval threshold start).Tallies interval (max threshold 1) start 0 [] 0
      0 where
  interval_eq := rfl
  threshold_eq := rfl
  pending_lt := Nat.le_max_right threshold 1
  total_eq := rfl
  sum_eq := rfl
  length_eq := rfl
  early_le := Nat.le_of_eq (Nat.zero_mul _)
  start_le := Nat.le_refl _
  late_le := Nat.le_trans (Nat.le_of_eq (Nat.zero_mul _)) (Nat.zero_le _)
  length_of_zero _ := rfl

/-- All pending losses are reported: as many as the threshold tells, or after an interval. -/
private theorem tell (h : w.Tallies interval threshold start calls reports early late)
    {call : LossCall} (later : w.last ≤ call.checked)
    (due : interval ≤ call.checked - w.last ∨ threshold ≤ w.monitor.pending + 1)
    {report : LossReport} (lost : report.lost = w.monitor.pending + 1) :
    ∃ early' late', Tallies
      ⟨{ w.monitor with total := w.monitor.total + 1, pending := 0 }, call.noted⟩ interval
      threshold start (calls + 1) (reports ++ [report]) early' late' := by
  have noted := call.checked_le_noted
  have below := h.pending_lt
  have early_le := h.early_le
  have start_le := h.start_le
  have late_le := h.late_le
  have total : w.monitor.total + 1 = calls + 1 := congrArg (· + 1) h.total_eq
  have empty : 0 < threshold := Nat.zero_lt_of_lt below
  have after : start ≤ call.noted := by omega
  have sum : ((reports ++ [report]).map LossReport.lost).sum + 0 = calls + 1 := by
    rw [List.map_append, List.sum_append, List.map_singleton, List.sum_singleton, lost,
      ← h.sum_eq]
    rfl
  have length : (reports ++ [report]).length = early + late + 1 := by
    rw [List.length_append, h.length_eq, List.length_singleton]
  have always (zero : interval = 0) : (reports ++ [report]).length = calls + 1 := by
    rw [List.length_append, h.length_of_zero zero, List.length_singleton]
  -- A report after the interval counts as late, even if the threshold is reached, too.
  by_cases elapsed : interval ≤ call.checked - w.last
  · refine ⟨early, late + 1, h.interval_eq, h.threshold_eq, empty, total, sum, length, ?_, after,
      ?_, always⟩
    · show early * threshold + 0 ≤ calls + 1
      omega
    · show (late + 1) * interval ≤ call.noted - start
      rw [Nat.add_mul, Nat.one_mul]
      omega
  · have full : w.monitor.pending + 1 = threshold := by omega
    refine ⟨early + 1, late, h.interval_eq, h.threshold_eq, empty, total, sum, ?_, ?_, after, ?_,
      always⟩
    · rw [length]
      omega
    · show (early + 1) * threshold + 0 ≤ calls + 1
      rw [Nat.add_mul, Nat.one_mul]
      omega
    · show late * interval ≤ call.noted - start
      omega

/-- A call adds a loss to the pending ones, or reports all of them. -/
theorem next (h : w.Tallies interval threshold start calls reports early late) {call : LossCall}
    (later : w.last ≤ call.checked) :
    ∃ early' late', (w.next call).Tallies interval threshold start (calls + 1)
      (reports ++ (w.report call).toList) early' late' := by
  have called := w.called call
  generalize w.report call = answer at called ⊢
  generalize w.next call = w' at called ⊢
  cases called with
  | quiet young few =>
    rw [h.interval_eq] at young
    rw [h.threshold_eq] at few
    rw [Option.toList_none, List.append_nil]
    refine ⟨early, late, h.interval_eq, h.threshold_eq, few, congrArg (· + 1) h.total_eq,
      congrArg (· + 1) h.sum_eq, h.length_eq, Nat.add_le_add_right h.early_le 1, h.start_le,
      h.late_le, ?_⟩
    intro zero
    rw [zero] at young
    exact absurd young (Nat.not_lt_zero _)
  | told due =>
    rw [h.interval_eq, h.threshold_eq] at due
    exact h.tell later (by omega) rfl

end Tallies

/-- No report is made later than the last call. -/
theorem last_next_le {w : LossWatch} {call : LossCall} (later : w.last ≤ call.checked) :
    (w.next call).last ≤ call.noted := by
  have noted := call.checked_le_noted
  have called := w.called call
  generalize w.report call = answer at called
  generalize w.next call = w' at called ⊢
  cases called with
  | quiet => exact Nat.le_trans later noted
  | told => exact Nat.le_refl _

/-- Calls that are made in order, none before the latest report. -/
theorem Tallies.run {w : LossWatch} {interval threshold start calls early late now : Nat}
    {reports : List LossReport} (h : w.Tallies interval threshold start calls reports early late)
    (past : w.last ≤ now) {more : List LossCall} (order : LossCall.InOrder now more) :
    (w.run more).last ≤ LossCall.finish now more ∧
      ∃ early' late', (w.run more).Tallies interval threshold start (calls + more.length)
        (reports ++ w.reports more) early' late' := by
  induction more generalizing w calls reports early late now with
  | nil =>
    refine ⟨past, early, late, ?_⟩
    rw [LossWatch.reports, List.append_nil]
    exact h
  | cons call rest ih =>
    obtain ⟨here, later⟩ := order
    have reached := Nat.le_trans past here
    obtain ⟨early', late', after⟩ := h.next reached
    have all := ih after (last_next_le reached) later
    rw [List.append_assoc, Nat.add_assoc, Nat.add_comm 1] at all
    exact all

end LossWatch

/-- Of a monitor whose losses are counted one after the other, by a clock that does not go back: all
losses are counted, each one is in exactly one report or still pending, and fewer are pending than
the threshold tells. A loss goes without a report exactly if neither the interval is over since the
latest report, or since the monitor was created, nor the threshold reached. Every report has losses
and tells how many there were so far; one that comes before the interval is over has as many as the
threshold tells. So there are at most as many reports as thresholds in the losses, and intervals in
the time; without an interval every loss is reported at once. -/
theorem LossMonitor.reports_each_loss_once {interval threshold start : Nat} {calls : List LossCall}
    (order : LossCall.InOrder start calls) :
    let w := (LossWatch.create interval threshold start).run calls
    let reports := (LossWatch.create interval threshold start).reports calls
    w.monitor.total = calls.length ∧
    (reports.map LossReport.lost).sum + w.monitor.pending = w.monitor.total ∧
    w.monitor.pending < max threshold 1 ∧
    (∀ call : LossCall,
      (w.report call = none ↔
        call.checked - w.last < interval ∧ w.monitor.pending + 1 < max threshold 1) ∧
      ∀ report, w.report call = some report →
        1 ≤ report.lost ∧ report.total = calls.length + 1 ∧
        report.elapsed = call.checked - w.last ∧
        (call.checked - w.last < interval → report.lost = max threshold 1)) ∧
    (interval ≠ 0 → reports.length ≤
      w.monitor.total / max threshold 1 + (LossCall.finish start calls - start) / interval) ∧
    (interval = 0 → reports.length = w.monitor.total) := by
  intro w reports
  obtain ⟨last_le, early, late, tallies⟩ :=
    (LossWatch.Tallies.create interval threshold start).run (Nat.le_refl start) order
  rw [Nat.zero_add, List.nil_append] at tallies
  have total := tallies.total_eq
  refine ⟨total, tallies.sum_eq.trans total.symm, tallies.pending_lt, ?_, ?_, ?_⟩
  · intro call
    have due := w.report_eq_none_iff call
    rw [tallies.interval_eq, tallies.threshold_eq] at due
    refine ⟨due, ?_⟩
    intro report made
    have below : w.monitor.pending < max threshold 1 := tallies.pending_lt
    have same := LossWatch.report_eq_some made
    have told : w.report call ≠ none := by
      rw [made]
      exact Option.some_ne_none _
    rw [Ne, due] at told
    subst same
    refine ⟨Nat.le_add_left 1 _, congrArg (· + 1) total, rfl, ?_⟩
    intro young
    show w.monitor.pending + 1 = max threshold 1
    omega
  · intro timed
    have positive : 0 < max threshold 1 := Nat.zero_lt_of_lt tallies.pending_lt
    have early_le : early ≤ w.monitor.total / max threshold 1 := by
      rw [Nat.le_div_iff_mul_le positive, total]
      exact Nat.le_trans (Nat.le_add_right _ _) tallies.early_le
    have late_le : late ≤ (LossCall.finish start calls - start) / interval := by
      rw [Nat.le_div_iff_mul_le (Nat.pos_of_ne_zero timed)]
      exact Nat.le_trans tallies.late_le (Nat.sub_le_sub_right last_le start)
    calc reports.length = early + late := tallies.length_eq
      _ ≤ _ := Nat.add_le_add early_le late_le
  · intro untimed
    exact (tallies.length_of_zero untimed).trans total.symm

/-- Without an interval reports are not bounded by how often the losses reach the threshold: two
losses make two reports, though it takes both to reach the threshold once. -/
theorem LossMonitor.reports_outrun_threshold :
    let interval := 0
    let threshold := 2
    let calls : List LossCall := [⟨1, 1, by decide⟩, ⟨2, 2, by decide⟩]
    let w := (LossWatch.create interval threshold 0).run calls
    let reports := (LossWatch.create interval threshold 0).reports calls
    LossCall.InOrder 0 calls ∧ reports = [⟨1, 1, 1⟩, ⟨1, 2, 1⟩] ∧
      ¬reports.length ≤ w.monitor.total / max threshold 1 +
        if interval = 0 then 0 else (LossCall.finish 0 calls - 0) / interval := by
  decide

/-- The third loss reaches the threshold. The clock stands at four when the report is made, so that
the interval is over with the fifth loss and not with the fourth. -/
theorem LossMonitor.reports_each_loss_once_after_both :
    let calls : List LossCall := [⟨1, 1, by decide⟩, ⟨2, 2, by decide⟩, ⟨3, 4, by decide⟩,
      ⟨13, 13, by decide⟩, ⟨14, 15, by decide⟩, ⟨20, 20, by decide⟩]
    let w := (LossWatch.create 10 3 0).run calls
    let reports := (LossWatch.create 10 3 0).reports calls
    LossCall.InOrder 0 calls ∧ reports = [⟨3, 3, 3⟩, ⟨2, 5, 10⟩] ∧
      (reports.map LossReport.lost).sum + w.monitor.pending = w.monitor.total ∧
      reports.length ≤ w.monitor.total / max 3 1 + (LossCall.finish 0 calls - 0) / 10 ∧
      (w.report ⟨24, 24, by decide⟩ = none ↔
        24 - w.last < 10 ∧ w.monitor.pending + 1 < max 3 1) := by
  intro calls w reports
  have order : LossCall.InOrder 0 calls := by decide
  obtain ⟨-, sum, -, each, few, -⟩ := @reports_each_loss_once 10 3 0 calls order
  exact ⟨order, by decide, sum, few (by decide), (each ⟨24, 24, by decide⟩).1⟩

end TraceJournal
