import TraceJournal.Journal.Checkpoint
import TraceJournal.Journal.Error
import TraceJournal.Journal.Link

/-!
# Readers

A reader follows a store from a checkpoint on and buffers the records it finds, up to a bound,
until they are fetched. It works in small phases, between which it can be moved to another
checkpoint; every move starts a new generation, and what an older generation still brings is
dropped on arrival. When a cursor fails, the reader waits and then moves itself to just after the
present: what was stored in between is not read.

Library tracelog-log, module `reader`; SPEC_FULL §4.5.
-/

namespace TraceJournal

/-- How a reader is doing. Source: tracelog-log `ReaderState`. -/
inductive ReaderState where
  /-- No checkpoint yet. -/
  | unpositioned
  /-- A cursor was opened at a checkpoint. -/
  | positioned
  /-- The cursor was asked successfully. -/
  | streaming
  /-- The cursor failed. -/
  | recovering
  deriving DecidableEq, Repr

/-- The name of a state. -/
def ReaderState.name : ReaderState → String
  | .unpositioned => "Unpositioned"
  | .positioned => "Positioned"
  | .streaming => "Streaming"
  | .recovering => "Recovering"

/-- A cursor with the checkpoint and the generation that it was opened for. Source: tracelog-log
`CursorSlot`. -/
structure Slot where
  generation : Nat
  checkpoint : Checkpoint
  cursor : Cursor

/-- What the worker of a reader does next. Source: tracelog-log `run`, between two of its accesses
to what is shared. -/
inductive Phase where
  /-- Takes the present slot. -/
  | ready
  /-- Looks whether there is room in the buffer. -/
  | holding (slot : Slot)
  /-- Asks the cursor. -/
  | asking (slot : Slot)
  /-- Notes that a document came. -/
  | arrived (slot : Slot) (document : Document)
  /-- Puts the record of a document into the buffer. -/
  | keeping (slot : Slot) (document : Document)
  /-- Notes that nothing came. -/
  | exhausted (slot : Slot)
  /-- Notes that the cursor failed. -/
  | broken (slot : Slot)
  /-- Waits, and then moves to just after the present unless the reader was moved meanwhile. -/
  | waiting (generation : Nat)

/-- Follows a store from a checkpoint on. Source: tracelog-log `ReaderShared`. -/
structure Reader where
  enabled : Bool
  /-- How many records are buffered at most. -/
  capacity : Nat
  slot : Option Slot
  generation : Nat
  state : ReaderState
  buffer : List Record
  /-- How often the reader has moved itself after a failure. -/
  recoveries : Nat
  phase : Phase
  closed : Bool

namespace Reader

/-- A reader without a checkpoint. Source: tracelog-log `TraceReader.new`. -/
def create (capacity : Nat) (enabled : Bool) : Reader where
  enabled := enabled
  capacity := capacity
  slot := none
  generation := 0
  state := .unpositioned
  buffer := []
  recoveries := 0
  phase := .ready
  closed := false

/-- The checkpoint of the present slot. Source: tracelog-log `TraceReader.checkpoint`. -/
def checkpoint (r : Reader) : Option Checkpoint := r.slot.map Slot.checkpoint

/-- Opens a cursor at a checkpoint. If a cursor can be opened only while a document matches and none
does, a sentinel is stored first. Source: tracelog-log `ReaderShared.open_at`, up to the cursor. -/
def openCursor (checkpoint : Checkpoint) (link : Link) : Except StoreError Cursor × Link :=
  if link.requiresAnchor then
    match link.existsFrom checkpoint.time with
    | (.error e, link) => (.error e, link)
    | (.ok true, link) => link.tailFrom checkpoint.time
    | (.ok false, link) =>
      match link.serialize (Record.sentinel checkpoint.time) with
      | (.error e, link) => (.error e, link)
      | (.ok sentinel, link) =>
        match link.insert sentinel with
        | (.error e, link) => (.error e, link)
        | (.ok (), link) => link.tailFrom checkpoint.time
  else link.tailFrom checkpoint.time

/-- Moves the reader to a checkpoint. If no cursor can be opened, the reader stays as it is. Source:
tracelog-log `ReaderShared.open_at`. -/
def openAt (checkpoint : Checkpoint) (r : Reader) (link : Link) :
    Except StoreError Checkpoint × Reader × Link :=
  match openCursor checkpoint link with
  | (.error e, link) => (.error e, r, link)
  | (.ok cursor, link) =>
    let generation := r.generation + 1
    (.ok checkpoint,
      { r with
        generation
        state := .positioned
        buffer := []
        slot := some ⟨generation, checkpoint, cursor⟩ },
      link)

/-- The checkpoint for an explicit time, or else just after the present; see `Checkpoint.after` for
the last millisecond that there is. Source: tracelog-log `ReaderShared.open_at`, its checkpoint. -/
def target (time : Option Instant) (now : Instant) : Checkpoint :=
  match time with
  | some t => .atTime t
  | none => .after now

/-- Moves the reader to a time, or else to just after the present. A disabled reader only answers
the checkpoint, for the present if there is no time. Source: tracelog-log `TraceReader.move_to`. -/
def moveTo (time : Option Instant) (now : Instant) (r : Reader) (link : Link) :
    Except JournalError Checkpoint × Reader × Link :=
  if r.enabled then
    match r.openAt (target time now) link with
    | (.ok checkpoint, r, link) => (.ok checkpoint, r, link)
    | (.error e, r, link) => (.error (.store e), r, link)
  else (.ok (.atTime (time.getD now)), r, link)

/-- Takes buffered records out, in the order of their arrival: all of them, or those before a time.
Source: tracelog-log `TraceReader.get_traces`. -/
def fetch (before : Option Instant) (r : Reader) : List Record × Reader :=
  if r.enabled then
    match before with
    | none => (r.buffer, { r with buffer := [] })
    | some t =>
      let (taken, kept) := r.buffer.partition fun record => record.time < t
      (taken, { r with buffer := kept })
  else ([], r)

/-- Stops the worker; what is buffered can still be fetched. Source: tracelog-log
`TraceReader.close`. -/
def close (r : Reader) : Reader := { r with closed := true }

/-- The reader in another state, unless it has moved on from a generation. Source: tracelog-log
`ReaderShared.mark`. -/
def mark (generation : Nat) (state : ReaderState) (r : Reader) : Reader :=
  if r.generation = generation then { r with state } else r

/-- The reader with one more record, unless it has moved on from a generation. Source: tracelog-log
`ReaderShared.push`. -/
def push (generation : Nat) (record : Record) (r : Reader) : Reader :=
  if r.generation = generation then { r with buffer := r.buffer ++ [record] } else r

/-- The record of a document that is to be buffered at a checkpoint: none for a sentinel, for one
before the checkpoint, and for a document that is no record. Source: tracelog-log `run`, what it
makes of a document. -/
def admitted? (checkpoint : Checkpoint) (d : Document) : Option Record :=
  match d.toRecord with
  | .ok record => if record.isSentinel || !checkpoint.admits record then none else some record
  | .error _ => none

/-- The reader in whose slot, if it is still the one of this generation, the cursor has moved.
Source: tracelog-log `CursorSlot.cursor`, after a question. -/
def keepCursor (slot : Slot) (r : Reader) : Reader :=
  match r.slot with
  | some current =>
    if current.generation = slot.generation then { r with slot := some slot } else r
  | none => r

/-- The buffer has no room. Source: tracelog-log `ReaderShared.is_full`. -/
def isFull (r : Reader) : Bool := r.capacity ≤ r.buffer.length

/-- Moves to just after the present after a wait, unless the reader was moved meanwhile. When that
fails, the worker goes on with the slot it has. Source: tracelog-log `ReaderShared.resync`, as
`recover` calls it. -/
def resync (generation : Nat) (now : Instant) (r : Reader) (link : Link) : Reader × Link :=
  if r.generation = generation then
    match r.openAt (.after now) link with
    | (.ok _, r, link) => ({ r with recoveries := r.recoveries + 1 }, link)
    | (.error _, r, link) => (r, link)
  else (r, link)

/-- One phase of the worker; `now` is the present, should the worker need it. Source: tracelog-log
`run` and `ReaderShared.recover`. -/
def step (now : Instant) (r : Reader) (link : Link) : Reader × Link :=
  if r.closed || !r.enabled then (r, link)
  else
    match r.phase with
    | .ready =>
      match r.slot with
      | none => (r, link)
      | some slot => ({ r with phase := .holding slot }, link)
    | .holding slot =>
      ({ r with phase := if r.isFull then .ready else .asking slot }, link)
    | .asking slot =>
      let (result, cursor, link) := link.tryNext slot.cursor
      let slot := { slot with cursor }
      let r := r.keepCursor slot
      match result with
      | .ok (some d) => ({ r with phase := .arrived slot d }, link)
      | .ok none => ({ r with phase := .exhausted slot }, link)
      | .error _ => ({ r with phase := .broken slot }, link)
    | .arrived slot d =>
      ({ r.mark slot.generation .streaming with phase := .keeping slot d }, link)
    | .keeping slot d =>
      let r :=
        match admitted? slot.checkpoint d with
        | some record => r.push slot.generation record
        | none => r
      ({ r with phase := .ready }, link)
    | .exhausted slot => ({ r.mark slot.generation .streaming with phase := .ready }, link)
    | .broken slot =>
      ({ r.mark slot.generation .recovering with phase := .waiting slot.generation }, link)
    | .waiting generation =>
      let (r, link) := r.resync generation now link
      ({ r with phase := .ready }, link)

/-- The form for diagnostics, with the reader's identifier. Source: tracelog-log, the diagnostics of
`TraceReader`. -/
def debug (identifier : String) (checkpointText : Checkpoint → String) (r : Reader) : String :=
  "TraceReader \x7b id: " ++ identifier ++ ", read_enabled: " ++
    (if r.enabled then "true" else "false") ++ ", state: " ++ r.state.name ++ ", checkpoint: " ++
    (match r.checkpoint with
      | none => "None"
      | some c => "Some(" ++ checkpointText c ++ ")") ++
    ", buffered: " ++ String.ofList (Text.decimal r.buffer.length) ++ " \x7d"

end Reader

end TraceJournal
