import TraceJournal.Store.Basic

/-!
# Links to stores

A store as writers and readers reach it: over a link on which calls can fail. A failing call does
not reach the store. Which of the next calls fail is part of the link, so that a run with failures
is as definite as one without. What a reader stores is made a document of on the way, which can
fail, too.

Library tracelog-store, module `traits`: any `TraceStore` and `DocumentMapper` can fail.
-/

namespace TraceJournal

/-- The calls that can fail: that which makes a document of a record, and those of a store. -/
inductive Call where
  | serialize
  | insert
  | existsFrom
  | tailFrom
  | tryNext
  | lastSerial
  deriving DecidableEq, Repr

/-- The name of a call in messages. -/
def Call.name : Call → String
  | .serialize => "serialize"
  | .insert => "insert"
  | .existsFrom => "exists"
  | .tailFrom => "tail"
  | .tryNext => "next"
  | .lastSerial => "last_serial"

/-- A store and the failures of the next calls. -/
structure Link where
  store : Store
  /-- Whether a cursor can be opened only while a document matches; none for what the store
  itself says. -/
  anchor : Option Bool
  /-- How many of the next calls of a kind fail. -/
  failures : Call → Nat
  /-- Documents that a cursor cannot take over the link. -/
  poison : Document → Bool

namespace Link

/-- A link without failures. -/
def reliable (store : Store) : Link := ⟨store, none, fun _ => 0, fun _ => false⟩

/-- The link on which the next `n` calls of a kind fail. -/
def arm (call : Call) (n : Nat) (link : Link) : Link :=
  { link with failures := fun c => if c = call then n else link.failures c }

/-- A cursor can be opened only while a document matches. Source: tracelog-store
`TraceStore.requires_anchor`. -/
def requiresAnchor (link : Link) : Bool := link.anchor.getD link.store.requiresAnchor

/-- Makes a call, unless it fails. -/
def attempt {α : Type} (call : Call) (action : Link → Except StoreError α × Link) (link : Link) :
    Except StoreError α × Link :=
  match link.failures call with
  | 0 => action link
  | n + 1 => (.error (.unavailable (call.name ++ " failed")), link.arm call n)

/-- Makes the document that keeps a record. Source: tracelog-store `DocumentMapper.serialize`. -/
def serialize (r : Record) : Link → Except StoreError Document × Link :=
  attempt .serialize fun link => (.ok (Document.ofRecord r), link)

/-- Appends a document. Source: tracelog-store `TraceStore.insert`. -/
def insert (d : Document) : Link → Except StoreError Unit × Link :=
  attempt .insert fun link =>
    let (result, store) := link.store.insert d
    (result, { link with store })

/-- A document at or after a time is stored. Source: tracelog-store `TraceStore.exists_from`. -/
def existsFrom (source : Instant) : Link → Except StoreError Bool × Link :=
  attempt .existsFrom fun link => (link.store.existsFrom source, link)

/-- A cursor over the documents at or after a time. Source: tracelog-store
`TraceStore.tail_from`. -/
def tailFrom (source : Instant) : Link → Except StoreError Cursor × Link :=
  attempt .tailFrom fun link => (link.store.tailFrom source, link)

/-- The highest serial number in the store. Source: tracelog-store `TraceStore.last_serial`. -/
def lastSerial : Link → Except StoreError (Option UInt64) × Link :=
  attempt .lastSerial fun link => (link.store.lastSerial, link)

/-- The next matching document. A poisoned one is passed over with an error. Source: tracelog-store
`TailCursor.try_next`. -/
def tryNext (cursor : Cursor) (link : Link) :
    Except StoreError (Option Document) × Cursor × Link :=
  match link.failures .tryNext with
  | n + 1 => (.error (.unavailable (Call.tryNext.name ++ " failed")), cursor, link.arm .tryNext n)
  | 0 =>
    let (result, cursor) := cursor.tryNext link.store
    match result with
    | .ok (some d) =>
      if link.poison d then (.error (.unavailable "poisoned"), cursor, link)
      else (.ok (some d), cursor, link)
    | other => (other, cursor, link)

end Link

end TraceJournal
