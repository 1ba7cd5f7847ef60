/-!
# Loss reports

Records for which there is no room in the queue are counted. A report is due when some time has
passed since the previous one, or when enough losses have come together, so that a flood of losses
makes few reports.

Library tracelog-pipeline, module `loss`; SPEC_FULL §4.1.
-/

namespace TraceJournal

/-- A report of losses. Source: tracelog-pipeline `LossReport`. -/
structure LossReport where
  /-- The losses since the previous report. -/
  lost : Nat
  /-- All losses so far. -/
  total : Nat
  /-- The time since the previous report, in the unit of the interval. -/
  elapsed : Nat
  deriving DecidableEq, Repr

/-- Counts losses and tells when a report is due. Source: tracelog-pipeline `LossMonitor`. -/
structure LossMonitor where
  total : Nat
  /-- The losses since the previous report. -/
  pending : Nat
  /-- The time after which a report is due. -/
  interval : Nat
  /-- The number of losses with which a report is due at once. -/
  threshold : Nat
  threshold_pos : 1 ≤ threshold

namespace LossMonitor

/-- A monitor that has not seen a loss. A threshold of zero counts as one. Source: tracelog-pipeline
`LossMonitor.new`. -/
def create (interval threshold : Nat) : LossMonitor :=
  ⟨0, 0, interval, max threshold 1, Nat.le_max_right threshold 1⟩

/-- Counts one loss, so much time after the previous report; answers the report that is due. Source:
tracelog-pipeline `LossMonitor.record`. -/
def record (elapsed : Nat) (m : LossMonitor) : Option LossReport × LossMonitor :=
  let total := m.total + 1
  let pending := m.pending + 1
  if elapsed < m.interval ∧ pending < m.threshold then (none, { m with total, pending })
  else (some ⟨pending, total, elapsed⟩, { m with total, pending := 0 })

end LossMonitor

end TraceJournal
