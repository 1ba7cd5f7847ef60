import TraceJournal.Store.Error

/-!
# Errors of the journal

Library tracelog-log, module `error`; SPEC_FULL §7.
-/

namespace TraceJournal

/-- Why an operation on the journal fails. Source: tracelog-log `LogError`. -/
inductive JournalError where
  | store (cause : StoreError)
  | file (cause : FileError)
  /-- The settings cannot be read or written. -/
  | settings (reason : String)
  /-- A text of the settings has too many marks next to each other to be written. -/
  | longRun
  /-- No serial number follows the last one. -/
  | noSerial
  /-- A writer found no serial number before, and cannot be used since. -/
  | unusable
  deriving DecidableEq

namespace JournalError

/-- The wording of a journal error. Source: tracelog-log, the display form of `LogError`. -/
def message : JournalError → String
  | store cause => "store error: " ++ cause.message
  | file cause => "io error: " ++ cause.message
  | settings reason => "invalid configuration: " ++ reason
  | longRun | noSerial => "attempt to add with overflow"
  | unusable => "serial lock poisoned: PoisonError \x7b .. \x7d"

/-- The text with which the operation breaks off instead of answering, if it does. -/
def panic? : JournalError → Option String
  | store .frameBeyondEnd => some StoreError.frameBeyondEnd.message
  | longRun => some longRun.message
  | noSerial => some noSerial.message
  | unusable => some unusable.message
  | _ => none

end JournalError

end TraceJournal
