import TraceJournal.Journal.Error
import TraceJournal.Journal.Link
import TraceJournal.Pipeline.Error

/-!
# Writers

A writer stores records under serial numbers of its own, which go on from the highest one that the
store held at the first write. A failed look-up of that number is made again at the next write; a
failed insertion uses its number up. A writer that finds no number after the last one breaks off,
then and at every later write.

Library tracelog-log, module `writer`; SPEC_FULL §4.4.
-/

namespace TraceJournal

/-- Stores records under rising serial numbers. Source: tracelog-log `DurableLogWriter`. -/
structure Writer where
  enabled : Bool
  /-- The serial number assigned last; none before the first look-up. -/
  serial : Option UInt64
  /-- There was no serial number for some record. -/
  unusable : Bool
  /-- How many records were stored. -/
  written : Nat
  /-- How many records could not be stored. -/
  failed : Nat
  deriving DecidableEq

namespace Writer

/-- A writer that has not written yet. Source: tracelog-log `DurableLogWriter.with_json`. -/
def create (enabled : Bool) : Writer := ⟨enabled, none, false, 0, 0⟩

/-- The name under which a writer handles records. Source: tracelog-log `DurableLogWriter.name`. -/
def name : String := "durable-log"

/-- Takes the serial number after a given one. Source: tracelog-log `DurableLogWriter.next_serial`,
its last part. -/
def takeAfter (last : UInt64) (w : Writer) : Except JournalError UInt64 × Writer :=
  if last.toNat + 1 < UInt64.size then (.ok (last + 1), { w with serial := some (last + 1) })
  else (.error .noSerial, { w with unusable := true })

/-- Takes the next serial number. Source: tracelog-log `DurableLogWriter.next_serial`. -/
def nextSerial (w : Writer) (link : Link) : Except JournalError UInt64 × Writer × Link :=
  if w.unusable then (.error .unusable, w, link)
  else
    match w.serial with
    | some last =>
      let (result, w) := w.takeAfter last
      (result, w, link)
    | none =>
      match link.lastSerial with
      | (.ok highest, link) =>
        let (result, w) := w.takeAfter (highest.getD 0)
        (result, w, link)
      | (.error e, link) => (.error (.store e), w, link)

/-- Stores a record and answers its position, whether the writer is enabled or not. Source:
tracelog-log `DurableLogWriter.write`. -/
def write (r : Record) (w : Writer) (link : Link) :
    Except JournalError Position × Writer × Link :=
  match w.nextSerial link with
  | (.error e, w, link) => (.error e, w, link)
  | (.ok serial, w, link) =>
    let stamped := r.withSerial serial
    match link.insert (Document.ofRecord stamped) with
    | (.ok (), link) => (.ok stamped.position, { w with written := w.written + 1 }, link)
    | (.error e, link) => (.error (.store e), w, link)

/-- Stores a record if the writer is enabled. An error of the store only counts, and is answered to
be logged; the handler fails only by breaking off. Source: tracelog-log
`DurableLogWriter.handle`. -/
def handle (r : Record) (w : Writer) (link : Link) :
    Except HandlerError (Option JournalError) × Writer × Link :=
  if w.enabled then
    match w.write r link with
    | (.ok _, w, link) => (.ok none, w, link)
    | (.error e, w, link) =>
      match e.panic? with
      | some text => (.error (.panicked text), w, link)
      | none => (.ok (some e), { w with failed := w.failed + 1 }, link)
  else (.ok none, w, link)

/-- The form for diagnostics. Source: tracelog-log, the diagnostics of `DurableLogWriter`. -/
def debug (w : Writer) : String :=
  "DurableLogWriter \x7b enabled: " ++ (if w.enabled then "true" else "false") ++
    ", written: " ++ String.ofList (Text.decimal w.written) ++
    ", failed: " ++ String.ofList (Text.decimal w.failed) ++ " \x7d"

end Writer

end TraceJournal
