import TraceJournal.Files.Path
import TraceJournal.Time.Printer

/-!
# Errors of stores

Why a store, or a cursor over one, refuses. The wording of each error is fixed, as it is logged
and shown.

Library tracelog-store, module `error`; SPEC_FULL §7.
-/

namespace TraceJournal

/-- Why a store refuses. Source: tracelog-store `StoreError`. -/
inductive StoreError where
  /-- A file cannot be used. -/
  | file (cause : FileError)
  /-- A document cannot be turned into a record. -/
  | serialization (reason : String)
  /-- No stored document is at or after the time from which a cursor should read. -/
  | deadCursor (source : Instant)
  /-- The document at the position of a cursor is gone. -/
  | cursorInvalidated (position : Nat)
  /-- The store cannot be reached. -/
  | unavailable (reason : String)
  /-- A frame lies beyond the end of the file as far as the store knows it. -/
  | frameBeyondEnd
  deriving DecidableEq

/-- The wording of a store error. Source: tracelog-store, the display form of `StoreError`. -/
def StoreError.message : StoreError → String
  | .file cause => "I/O error: " ++ cause.message
  | .serialization reason => "serialization error: " ++ reason
  | .deadCursor source =>
    "no document at or after " ++ source.spacedText ++ "; tailing cursor would be dead"
  | .cursorInvalidated position =>
    "cursor invalidated at position " ++ String.ofList (Text.decimal position)
  | .unavailable reason => "store unavailable: " ++ reason
  | .frameBeyondEnd => "attempt to subtract with overflow"

end TraceJournal
