/-!
# Errors of handlers

Why a handler has not handled a record: it says so, or it breaks off with a panic. The wording is
fixed, as it is logged.

Library tracelog-pipeline, module `error`; SPEC_FULL §7.
-/

namespace TraceJournal

/-- Why a handler has not handled a record. Source: tracelog-pipeline `HandlerError`. -/
inductive HandlerError where
  | failed (reason : String)
  | panicked (reason : String)
  deriving DecidableEq, Repr

namespace HandlerError

/-- What went wrong. -/
def reason : HandlerError → String
  | failed reason => reason
  | panicked reason => reason

/-- The wording of a handler error. Source: tracelog-pipeline, the display form of
`HandlerError`. -/
def message : HandlerError → String
  | failed reason => "handler failed: " ++ reason
  | panicked reason => "handler panicked: " ++ reason

/-- What stands for the payload of a panic that is no text. Source: tracelog-pipeline
`panic_message`. -/
def unknownPayload : String := "non-string panic payload"

end HandlerError

end TraceJournal
