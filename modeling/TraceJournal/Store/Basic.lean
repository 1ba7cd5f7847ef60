import TraceJournal.Store.Memory
import TraceJournal.Store.Segment.Basic

/-!
# Stores

The two kinds of stores under one roof. Every operation answers the store as it is afterwards; a
segment store comes with the disk that its file is on.

Library tracelog-store, module `traits`; SPEC_FULL §6.
-/

namespace TraceJournal

/-- A store of documents. Source: tracelog-store `TraceStore`. -/
inductive Store where
  | memory (store : MemoryStore)
  | segment (store : Segment) (disk : Disk)

/-- A place in a store, from which documents are read on. Source: tracelog-store `TailCursor`. -/
inductive Cursor where
  | memory (cursor : MemoryCursor)
  | segment (cursor : SegmentCursor)

namespace Store

/-- Appends a document. Source: tracelog-store `TraceStore.insert`. -/
def insert (d : Document) : Store → Except StoreError Unit × Store
  | memory s => (.ok (), memory (s.insert d))
  | segment s disk =>
    let (result, s, disk) := s.insert d disk
    (result, segment s disk)

/-- A document at or after a time is stored. Source: tracelog-store `TraceStore.exists_from`. -/
def existsFrom (source : Instant) : Store → Except StoreError Bool
  | memory s => .ok (s.existsFrom source)
  | segment s disk => s.existsFrom source disk

/-- A cursor over the documents at or after a time. Source: tracelog-store
`TraceStore.tail_from`. -/
def tailFrom (source : Instant) : Store → Except StoreError Cursor
  | memory s => .memory <$> s.tailFrom source
  | segment s disk => .segment <$> s.tailFrom source disk

/-- The highest serial number in the store. Source: tracelog-store `TraceStore.last_serial`. -/
def lastSerial : Store → Except StoreError (Option UInt64)
  | memory s => .ok s.lastSerial
  | segment s disk => s.lastSerial disk

/-- Every document that can be read, oldest first. Source: tracelog-store `documents` of both
stores. -/
def documents : Store → Except StoreError (List Document)
  | memory s => .ok s.documents
  | segment s disk => s.documents disk

/-- A cursor can be opened only while a document matches. Source: tracelog-store
`TraceStore.requires_anchor`. -/
def requiresAnchor : Store → Bool
  | memory _ => true
  | segment _ _ => false

end Store

/-- The next matching document, if there is one yet. A cursor is used with the store that it was
opened on; on one of the other kind it finds nothing. Source: tracelog-store
`TailCursor.try_next`. -/
def Cursor.tryNext (store : Store) : Cursor → Except StoreError (Option Document) × Cursor
  | memory c =>
    match store with
    | .memory s =>
      let (result, c) := c.tryNext s
      (result, memory c)
    | .segment _ _ => (.ok none, memory c)
  | segment c =>
    match store with
    | .segment _ disk =>
      let (result, c) := c.tryNext disk
      (result, segment c)
    | .memory _ => (.ok none, segment c)

end TraceJournal
