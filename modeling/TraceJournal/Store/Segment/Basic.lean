import TraceJournal.Files.Volume
import TraceJournal.Store.Error
import TraceJournal.Store.Segment.Window

/-!
# Segment stores

A store in a file of frames. A document is appended as a frame. When the file has become longer
than its bound, the oldest frames are cut off so that about three quarters of the bound are left;
that moves everything in the file, so that cursors opened before fail from then on. Every open
store counts its own cuts, and knows the end of the file only from what it wrote itself.

Library tracelog-store, module `segment`; SPEC_FULL §4.6.
-/

namespace TraceJournal

/-- The files that segment stores use, and how often each open store has cut its file. -/
structure Disk where
  volume : Volume
  /-- The number of cuts of every store ever opened, by the number of the store. -/
  cuts : List Nat
  deriving DecidableEq

/-- An open segment store. Source: tracelog-store `SegmentTraceStore`. -/
structure Segment where
  path : Path
  /-- The number of the file that the store appends to. -/
  file : Nat
  /-- The end of the file, as far as the store knows. -/
  size : Nat
  /-- The length from which on the file is cut. -/
  maxSize : Nat
  /-- The number of the store among all that were opened. -/
  number : Nat
  deriving DecidableEq

/-- A place in a segment file. Source: tracelog-store `SegmentCursor`. -/
structure SegmentCursor where
  /-- The number of the file that is read. -/
  file : Nat
  window : Window
  /-- Where the next frame starts. -/
  offset : Nat
  /-- Documents before this time are passed over. -/
  source : Instant
  /-- The number of the store that the cursor was opened through. -/
  number : Nat
  /-- The cuts of that store at the time. -/
  opened : Nat

namespace Disk

/-- A disk without files. -/
def empty : Disk := ⟨.empty, []⟩

/-- How often a store has cut its file. -/
def cutsOf (disk : Disk) (number : Nat) : Nat := disk.cuts[number]?.getD 0

end Disk

namespace Segment

/-- Opens the store in a file; the file, and the directories it stands in, are created if they are
missing. Source: tracelog-store `SegmentTraceStore.open`. -/
def openAt (path : Path) (maxSize : Nat) (disk : Disk) :
    Except StoreError Segment × Disk :=
  match disk.volume.createDirectories path.directory with
  | (.error e, volume) => (.error (.file e), { disk with volume })
  | (.ok (), volume) =>
    match volume.openOrCreate path with
    | .error e => (.error (.file e), { disk with volume })
    | .ok (file, volume) =>
      (.ok { path, file, maxSize, size := (volume.bytes file).length, number := disk.cuts.length },
        { volume, cuts := disk.cuts ++ [0] })

/-- The documents in the file under the store's path, with the places of their frames. Source:
tracelog-store `SegmentTraceStore.scan`. -/
def scan (s : Segment) (disk : Disk) : Except StoreError (List (Nat × Document)) :=
  match disk.volume.read s.path with
  | .ok bytes => .ok (Frame.scan bytes)
  | .error e => .error (.file e)

/-- Every document that can be read, oldest first. Source: tracelog-store
`SegmentTraceStore.documents`. -/
def documents (s : Segment) (disk : Disk) : Except StoreError (List Document) :=
  (·.map (·.2)) <$> s.scan disk

/-- A document at or after a time is stored. Source: tracelog-store
`SegmentTraceStore.exists_from`. -/
def existsFrom (s : Segment) (source : Instant) (disk : Disk) : Except StoreError Bool :=
  (·.any fun d => source ≤ d.time) <$> s.documents disk

/-- The highest serial number in the store. Source: tracelog-store
`SegmentTraceStore.last_serial`. -/
def lastSerial (s : Segment) (disk : Disk) : Except StoreError (Option UInt64) :=
  Document.highestSerial? <$> s.documents disk

/-- A cursor at the start of the file. Source: tracelog-store `SegmentTraceStore.tail_from`. -/
def tailFrom (s : Segment) (source : Instant) (disk : Disk) : Except StoreError SegmentCursor :=
  match disk.volume.file s.path with
  | .ok file =>
    .ok { file, window := .atPlace 0, offset := 0, source, number := s.number
          opened := disk.cutsOf s.number }
  | .error e => .error (.file e)

/-- How many bytes a cut leaves at most. Source: tracelog-store `SegmentTraceStore.compact`, its
`keep_bytes`. -/
def keptSize (s : Segment) : Nat := s.maxSize / 4 * 3

/-- Where to cut: at the first frame from which on at most `kept` bytes are left, or at the end.
Nothing when a frame before that one lies beyond the end. Source: tracelog-store
`SegmentTraceStore.compact`, its `cut`. -/
def cutPlace? (size kept : Nat) : List Nat → Option Nat
  | [] => some size
  | offset :: rest =>
    if size < offset then none
    else if size - offset ≤ kept then some offset
    else cutPlace? size kept rest

/-- Cuts off the oldest frames. A frame beyond the end makes it abort: no distance from there to the
end can be worked out. Source: tracelog-store `SegmentTraceStore.compact`. -/
def compact (s : Segment) (disk : Disk) : Except StoreError Segment × Disk :=
  match disk.volume.file s.path with
  | .error e => (.error (.file e), disk)
  | .ok file =>
    let bytes := disk.volume.bytes file
    match cutPlace? s.size s.keptSize ((Frame.scan bytes).map (·.1)) with
    | none => (.error .frameBeyondEnd, disk)
    | some place =>
      let left := bytes.drop place
      (.ok { s with file, size := left.length },
        { volume := disk.volume.write file left
          cuts := disk.cuts.set s.number (disk.cutsOf s.number + 1) })

/-- The wording of the refusal of a document whose payload is too long for a frame. -/
def tooLargeText : String := "document larger than 4 GiB"

/-- Puts bytes at the end of the file. Source: tracelog-store `SegmentTraceStore.insert`, where it
writes. -/
def append (s : Segment) (bytes : List UInt8) (disk : Disk) : Segment × Disk :=
  ({ s with size := s.size + bytes.length },
    { disk with volume := disk.volume.write s.file (disk.volume.bytes s.file ++ bytes) })

/-- Appends a document and cuts the file if it has become too long. The document stays appended when
the cut fails. A document that fits into no frame is refused. Source: tracelog-store
`SegmentTraceStore.insert`.

A cut that meets a frame beyond the end aborts while the lock on the store is held. The lock stays
poisoned, so that every later insertion through the store, and every question for its size, aborts
as well. Here the store can still be used; `Sharing.Guarded` is about stores that cannot. -/
def insert (s : Segment) (d : Document) (disk : Disk) :
    Except StoreError Unit × Segment × Disk :=
  if Frame.payloadLimit < (Frame.payload d).length then
    (.error (.serialization tooLargeText), s, disk)
  else
    let (s, disk) := s.append (Frame.encode d) disk
    if s.size ≤ s.maxSize then (.ok (), s, disk)
    else
      match s.compact disk with
      | (.ok s, disk) => (.ok (), s, disk)
      | (.error e, disk) => (.error e, s, disk)

/-- The form for diagnostics. Source: tracelog-store, the diagnostics of `SegmentTraceStore`. -/
def debug (s : Segment) : String :=
  "SegmentTraceStore \x7b path: " ++ Text.quoted s.path.text ++ ", size: " ++
    String.ofList (Text.decimal s.size) ++ " \x7d"

end Segment

namespace SegmentCursor

/-- The next matching document in a file, if there is one yet. Every round passes over one frame.
Source: tracelog-store `SegmentCursor.try_next`, its loop. -/
def readOn (file : List UInt8) : Nat → SegmentCursor → Option Document × SegmentCursor
  | 0, c => (none, c)
  | rounds + 1, c =>
    match c.window.frame file c.offset with
    | (.complete d next, window) =>
      let c := { c with window, offset := next }
      if c.source ≤ d.time then (some d, c) else readOn file rounds c
    | (.corrupt next, window) => readOn file rounds { c with window, offset := next }
    | (.incomplete, window) => (none, { c with window })

/-- The next matching document, if there is one yet. A cursor fails when its store has cut the file
since, or when the file ends before the cursor's place. Source: tracelog-store
`SegmentCursor.try_next`. -/
def tryNext (c : SegmentCursor) (disk : Disk) :
    Except StoreError (Option Document) × SegmentCursor :=
  let file := disk.volume.bytes c.file
  if disk.cutsOf c.number ≠ c.opened ∨ file.length < c.offset then
    (.error (.cursorInvalidated c.offset), c)
  else
    let (document, c) := c.readOn file (file.length + 1)
    (.ok document, c)

end SegmentCursor

end TraceJournal
