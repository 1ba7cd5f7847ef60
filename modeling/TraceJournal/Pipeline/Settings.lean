/-!
# Pipeline settings

Library tracelog-pipeline, module `pipeline`; SPEC_FULL §6.
-/

namespace TraceJournal

/-- How much a pipeline holds, and how often it reports losses. Source: tracelog-pipeline
`PipelineConfig`. -/
structure PipelineSettings where
  /-- How many records may wait for delivery. -/
  queueCapacity : UInt64
  /-- The least time between two reports of losses, in milliseconds. -/
  lossInterval : UInt64
  /-- The number of losses that is reported at once. -/
  lossThreshold : UInt64
  deriving DecidableEq, Repr

/-- Fifteen thousand records, and a report a second. Source: tracelog-pipeline
`PipelineConfig.default`. -/
def PipelineSettings.standard : PipelineSettings := ⟨15000, 1000, 1000⟩

end TraceJournal
