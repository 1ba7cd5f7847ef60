import TraceJournal.CommandLine.Invocation
import TraceJournal.Journal.Basic
import TraceJournal.Settings.Basic

/-!
# Following a journal

A journal is followed by a reader that is asked for records again and again, with a rest in between,
until some time has passed.

Library tracelog-cli, module `commands`; SPEC_FULL §4.7.
-/

namespace TraceJournal

/-- The line that shows a record, with its end. Source: tracelog-cli `print_record`. -/
def OutputFormat.line (format : OutputFormat) (r : Record) : String :=
  (match format with
    | .text => r.display
    | .json => r.render) ++ "\n"

/-- The lines that show records. -/
def OutputFormat.lines (format : OutputFormat) (records : List Record) : String :=
  String.join (records.map format.line)

/-- A journal that is being followed. Source: tracelog-cli `cmd_tail`. -/
structure Following where
  reader : Reader
  link : Link
  /-- How long to rest each time, in milliseconds. -/
  interval : Nat
  /-- How many records were shown. -/
  shown : Nat

namespace Following

/-- Follows a journal from a time on, or from just after the present. Source: tracelog-cli
`cmd_tail`, up to its loop. -/
def start (settings : ReaderSettings) (time : Option Instant) (now : Instant) (link : Link) :
    Except JournalError (Checkpoint × Following) :=
  match (Reader.create settings.maxBuffered.toNat true).moveTo time now link with
  | (.ok checkpoint, reader, link) =>
    .ok (checkpoint, ⟨reader, link, settings.pollInterval.toNat, 0⟩)
  | (.error e, _, _) => .error e

/-- The records that have come since they were taken last. Source: tracelog-cli `cmd_tail`, one
round. -/
def take (f : Following) : List Record × Following :=
  let (records, reader) := f.reader.fetch none
  (records, { f with reader, shown := f.shown + records.length })

/-- Lets the reader work until it can do nothing more. Source: tracelog-cli `cmd_tail`, its
pause. -/
def rest (now : Instant) (f : Following) : Following :=
  let (_, reader, link) := f.reader.settle .brief Journal.maxRounds now f.link
  { f with reader, link }

/-- The records that come in so many rests, and before the first one. Source: tracelog-cli
`cmd_tail`, its loop. -/
def collect (now : Instant) : (rests : Nat) → Following → List Record × Following
  | 0, f => f.take
  | rests + 1, f =>
    let (records, f) := f.take
    let (more, f) := collect now rests (f.rest now)
    (records ++ more, f)

/-- How many rests last some seconds. A rest lasts a millisecond at least. Source: tracelog-cli
`cmd_tail`, its deadline. -/
def restsIn (seconds : UInt64) (f : Following) : Nat :=
  (seconds.toNat * 1000 + max f.interval 1 - 1) / max f.interval 1

/-- The line that tells where following starts. Source: tracelog-cli `cmd_tail`, what it prints
first. -/
def greeting (path : Path) (checkpoint : Checkpoint) : String :=
  "Tailing " ++ path.text ++ " from " ++ checkpoint.display

/-- The line that tells how following went. Source: tracelog-cli `cmd_tail`, what it prints last. -/
def farewell (f : Following) : String :=
  "✓ " ++ String.ofList (Text.decimal f.shown) ++ " records, " ++
    String.ofList (Text.decimal f.reader.recoveries) ++ " resyncs"

end Following

end TraceJournal
