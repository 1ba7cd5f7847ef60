import TraceJournal.Bytes.Checksum
import TraceJournal.Bytes.Word
import TraceJournal.Store.Document

/-!
# Frames

A segment file is a sequence of frames. A frame holds one document: the length of its payload and
the checksum of the payload, four bytes each, and the payload, the JSON text of the document. A
frame whose payload is damaged is passed over; what is left at the end and is no whole frame, as
while a frame is being written, is left alone.

Library tracelog-store, module `segment`; SPEC_FULL §4.6.
-/

namespace TraceJournal

/-- What stands at some place of a segment file. Source: tracelog-store `Frame`. -/
inductive Frame where
  /-- A document, and where the next frame starts. -/
  | complete (document : Document) (next : Nat)
  /-- A frame that cannot be read, and where the next one starts. -/
  | corrupt (next : Nat)
  /-- Less than a frame. -/
  | incomplete
  deriving DecidableEq

namespace Frame

/-- The length of what stands in front of a payload. Source: tracelog-store `HEADER_SIZE`. -/
def headerSize : Nat := 8

/-- How many bytes a payload has at most, so that a header can tell its length. Source:
tracelog-store `SegmentTraceStore.insert`, the range of its length. -/
def payloadLimit : Nat := 0xFFFFFFFF

/-- The bytes of a payload. Source: tracelog-store `SegmentTraceStore.insert`, its payload. -/
def payload (d : Document) : List UInt8 := Text.toBytes d.render

/-- The bytes of a frame around a payload. Source: tracelog-store `SegmentTraceStore.insert`, its
frame. -/
def around (payload : List UInt8) : List UInt8 :=
  Bytes.ofNumber payload.length ++ Bytes.ofNumber (Bytes.checksum payload).toNat ++ payload

/-- The bytes of the frame of a document. -/
def encode (d : Document) : List UInt8 := around (payload d)

/-- The length of the payload, as a header tells it. -/
def payloadLength (header : List UInt8) : Nat := Bytes.toNumber header

/-- The checksum of the payload, as a header tells it. -/
def payloadChecksum (header : List UInt8) : Nat := Bytes.toNumber (header.drop 4)

/-- What a frame with the given checksum and payload is, if the next one starts at `next`. Source:
tracelog-store `read_frame`, its last part. -/
def judge (checksum : Nat) (payload : List UInt8) (next : Nat) : Frame :=
  if (Bytes.checksum payload).toNat = checksum then
    match Document.read payload with
    | .ok d => .complete d next
    | .error _ => .corrupt next
  else .corrupt next

/-- What stands at a place of a file. Source: tracelog-store `read_frame`, on the bytes of the whole
file. -/
def read (file : List UInt8) (offset : Nat) : Frame :=
  let rest := file.drop offset
  if rest.length < headerSize then .incomplete
  else
    let length := payloadLength rest
    let next := offset + headerSize + length
    if length = 0 then .corrupt next
    else if rest.length < headerSize + length then .incomplete
    else judge (payloadChecksum rest) ((rest.drop headerSize).take length) next

/-- The documents from a place of a file on, with the places of their frames. Every round passes
over one frame, so that the length of the file bounds the rounds. Source: tracelog-store
`SegmentTraceStore.scan`, its loop. -/
def scanFrom (file : List UInt8) : (rounds offset : Nat) → List (Nat × Document)
  | 0, _ => []
  | rounds + 1, offset =>
    match read file offset with
    | .complete d next => (offset, d) :: scanFrom file rounds next
    | .corrupt next => scanFrom file rounds next
    | .incomplete => []

/-- The documents of a file, with the places of their frames. Source: tracelog-store
`SegmentTraceStore.scan`. -/
def scan (file : List UInt8) : List (Nat × Document) := scanFrom file (file.length + 1) 0

/-- The documents of a file, oldest first. Source: tracelog-store `SegmentTraceStore.documents`. -/
def documents (file : List UInt8) : List Document := (scan file).map (·.2)

/-- Where the frame after this one starts. -/
def next? : Frame → Option Nat
  | complete _ next => some next
  | corrupt next => some next
  | incomplete => none

theorem next?_judge (checksum : Nat) (payload : List UInt8) (next : Nat) :
    (judge checksum payload next).next? = some next := by
  unfold judge
  split
  · split <;> rfl
  · rfl

/-- A frame that can be passed over has a whole header, and the next one starts after it and not
beyond the end of the file. -/
theorem read_progress {file : List UInt8} {offset next : Nat}
    (h : (read file offset).next? = some next) :
    offset + headerSize ≤ next ∧ next ≤ file.length := by
  simp only [read] at h
  split at h
  · simp [next?] at h
  · rename_i header
    simp only [List.length_drop] at header
    split at h
    · rename_i empty
      simp only [next?, Option.some.injEq] at h
      simp only [empty, headerSize] at *
      omega
    · split at h
      · simp [next?] at h
      · rename_i whole
        simp only [List.length_drop] at whole
        rw [next?_judge] at h
        simp only [Option.some.injEq, headerSize] at *
        omega

end Frame

end TraceJournal
