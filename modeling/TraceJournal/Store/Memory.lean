import TraceJournal.Store.Document
import TraceJournal.Store.Error

/-!
# Store in memory

A store that keeps at most a given number of documents: one too many pushes out the oldest. Every
document ever inserted has a number, counted from zero; the store knows the number of the oldest
one that is left, and a cursor the number of the one to read next. A cursor whose document is gone
fails for good, and none can be opened while nothing matches.

Library tracelog-store, module `memory`; SPEC_FULL §4.6.
-/

namespace TraceJournal

/-- A store in memory. Source: tracelog-store `InMemoryTraceStore`. -/
structure MemoryStore where
  documents : List Document
  /-- The number of the oldest document. -/
  first : Nat
  /-- How many documents are kept; none for any number. -/
  capacity : Option Nat
  capacity_pos : ∀ n, capacity = some n → 1 ≤ n

/-- A place in a store in memory. Source: tracelog-store `MemoryCursor`. -/
structure MemoryCursor where
  /-- The number of the document to read next. -/
  next : Nat
  /-- Documents before this time are passed over. -/
  source : Instant
  deriving DecidableEq

namespace MemoryStore

/-- An empty store for any number of documents. Source: tracelog-store `InMemoryTraceStore.new`. -/
def unbounded : MemoryStore := ⟨[], 0, none, nofun⟩

/-- An empty store that keeps at most `n` documents, and at least one. Source: tracelog-store
`InMemoryTraceStore.with_max_documents`. -/
def bounded (n : Nat) : MemoryStore :=
  ⟨[], 0, some (max n 1), fun _ h => Option.some.inj h ▸ Nat.le_max_right n 1⟩

/-- How many documents a list is too long by. Source: tracelog-store `InMemoryTraceStore.insert`,
the rounds of its loop. -/
def excess (s : MemoryStore) (length : Nat) : Nat :=
  match s.capacity with
  | none => 0
  | some n => length - n

/-- The store with one more document. Source: tracelog-store `InMemoryTraceStore.insert`. -/
def insert (s : MemoryStore) (d : Document) : MemoryStore :=
  let documents := s.documents ++ [d]
  let gone := s.excess documents.length
  { s with documents := documents.drop gone, first := s.first + gone }

/-- The store without any document. Source: tracelog-store `InMemoryTraceStore.clear`. -/
def clear (s : MemoryStore) : MemoryStore :=
  { s with documents := [], first := s.first + s.documents.length }

/-- A document at or after a time is stored. Source: tracelog-store
`InMemoryTraceStore.exists_from`. -/
def existsFrom (s : MemoryStore) (source : Instant) : Bool :=
  s.documents.any fun d => source ≤ d.time

/-- A cursor at the first document at or after a time. Source: tracelog-store
`InMemoryTraceStore.tail_from`. -/
def tailFrom (s : MemoryStore) (source : Instant) : Except StoreError MemoryCursor :=
  match s.documents.findIdx? fun d => source ≤ d.time with
  | some index => .ok ⟨s.first + index, source⟩
  | none => .error (.deadCursor source)

/-- The highest serial number in the store. Source: tracelog-store
`InMemoryTraceStore.last_serial`. -/
def lastSerial (s : MemoryStore) : Option UInt64 := Document.highestSerial? s.documents

/-- The form for diagnostics. Source: tracelog-store, the diagnostics of `InMemoryTraceStore`. -/
def debug (s : MemoryStore) : String :=
  "InMemoryTraceStore \x7b document_count: " ++
    String.ofList (Text.decimal s.documents.length) ++ " \x7d"

end MemoryStore

namespace MemoryCursor

/-- The next matching document, if there is one yet. Source: tracelog-store
`MemoryCursor.try_next`. -/
def tryNext (c : MemoryCursor) (s : MemoryStore) :
    Except StoreError (Option Document) × MemoryCursor :=
  if c.next < s.first then (.error (.cursorInvalidated c.next), c)
  else
    let ahead := s.documents.drop (c.next - s.first)
    match ahead.findIdx? fun d => c.source ≤ d.time with
    | some index => (.ok ahead[index]?, { c with next := c.next + index + 1 })
    | none => (.ok none, { c with next := c.next + ahead.length })

end MemoryCursor

end TraceJournal
