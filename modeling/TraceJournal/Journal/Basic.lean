import TraceJournal.Journal.Reader
import TraceJournal.Journal.Writer

/-!
# Journals

A store with the writers and readers that use it, each under a name. After every operation the
workers of the readers are run until none of them can do anything more.

Library tracelog-log, modules `reader` and `writer` together.
-/

namespace TraceJournal

/-- How long the wait of a reader after a failure lasts, seen from one operation to the next.
Source: tracelog-log `ReaderConfig.error_backoff`. -/
inductive Wait where
  /-- It is over before the next operation. -/
  | brief
  /-- It outlasts an operation, unless that one moves the reader: then it is waited for. -/
  | lasting
  /-- It never ends. -/
  | endless
  deriving DecidableEq, Repr

/-- The wait of a reader that waits so many milliseconds after a failure: up to fifty are over
before the next operation, and more than a thousand are never over. -/
def Wait.ofMillis (n : Nat) : Wait :=
  if n ≤ 50 then .brief else if n ≤ 1000 then .lasting else .endless

/-- A store with its writers and readers. -/
structure Journal where
  link : Link
  /-- The present; it moves on whenever somebody waits for the next millisecond. -/
  now : Instant
  writers : List (String × Writer)
  readers : List (String × Wait × Reader)

namespace Reader

/-- The worker can do something: it has a cursor and room in the buffer, or waits and the wait ends.
Source: tracelog-log `run`. -/
def isBusy (wait : Wait) (r : Reader) : Bool :=
  if r.closed || !r.enabled then false
  else
    match r.phase with
    | .waiting generation =>
      match wait with
      | .brief => true
      | .lasting => r.generation != generation
      | .endless => false
    | .ready => r.slot.isSome && !r.isFull
    | _ => true

/-- Runs the worker until it can do nothing more, or nothing more is stored. Answers the present
as it is then. -/
def settle (wait : Wait) : (rounds : Nat) → Instant → Reader → Link → Instant × Reader × Link
  | 0, now, r, link => (now, r, link)
  | rounds + 1, now, r, link =>
    if r.isBusy wait then
      let (r', link) := r.step now link
      match r.phase with
      | .exhausted _ => (now, r', link)
      | .waiting _ => settle wait rounds (Checkpoint.after now).time r' link
      | _ => settle wait rounds now r' link
    else (now, r, link)

end Reader

namespace Journal

/-- A journal that nobody uses yet. -/
def create (link : Link) (now : Instant) : Journal := ⟨link, now, [], []⟩

/-- The entries with one replaced, or added at the end. -/
def put {α : Type} (name : String) (value : α) : List (String × α) → List (String × α)
  | [] => [(name, value)]
  | (other, old) :: rest =>
    if other = name then (name, value) :: rest else (other, old) :: put name value rest

/-- How many phases the worker of a reader is run for at most. -/
def maxRounds : Nat := 1000000

/-- Runs the workers of all readers, one after the other. -/
def settleOnce (j : Journal) : Journal :=
  j.readers.foldl (fun j (name, wait, r) =>
    let (now, r, link) := r.settle wait maxRounds j.now j.link
    { j with now, link, readers := put name (wait, r) j.readers }) j

/-- Runs the workers of all readers until none finds anything more: what one of them stores, the
others see in the next round. -/
def settle (j : Journal) : Journal := Nat.repeat settleOnce (j.readers.length + 1) j

/-- The journal with a new writer, in place of one of its name. -/
def createWriter (name : String) (enabled : Bool) (j : Journal) : Journal :=
  { j with writers := put name (.create enabled) j.writers }

/-- The journal with a new reader, in place of one of its name. -/
def createReader (name : String) (capacity : Nat) (wait : Wait) (enabled : Bool) (j : Journal) :
    Journal :=
  { j with readers := put name (wait, .create capacity enabled) j.readers }

/-- Has a writer store a record. Source: tracelog-log `DurableLogWriter.write`. -/
def write (name : String) (w : Writer) (r : Record) (j : Journal) :
    Except JournalError Position × Journal :=
  let (result, w, link) := w.write r j.link
  (result, { j with link, writers := put name w j.writers })

/-- Has a writer handle a record; answers the error that is to be logged. Source: tracelog-log
`DurableLogWriter.handle`. -/
def handle (name : String) (w : Writer) (r : Record) (j : Journal) :
    Except HandlerError (Option JournalError) × Journal :=
  let (result, w, link) := w.handle r j.link
  (result, { j with link, writers := put name w j.writers })

/-- Moves a reader. Source: tracelog-log `TraceReader.move_to`. -/
def moveTo (name : String) (wait : Wait) (r : Reader) (time : Option Instant) (j : Journal) :
    Except JournalError Checkpoint × Journal :=
  let (result, r, link) := r.moveTo time j.now j.link
  let now := if time.isNone then (Checkpoint.after j.now).time else j.now
  (result, { j with link, now, readers := put name (wait, r) j.readers })

/-- Stores a document past the link, which cannot fail it. Source: tracelog-store
`TraceStore.insert`. -/
def insert (d : Document) (j : Journal) : Except StoreError Unit × Journal :=
  let (result, store) := j.link.store.insert d
  (result, { j with link := { j.link with store } })

end Journal

end TraceJournal
