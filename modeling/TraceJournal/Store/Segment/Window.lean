import TraceJournal.Store.Segment.Frame

/-!
# Reading through a window

A cursor reads a file through a window: a part of the file that was read at once, at most
`Window.capacity` bytes, and is used until it is left. Bytes in the window are as they were when
it was filled, even if the file has changed since.

Library tracelog-store, module `segment`, with the buffer that it reads through.
-/

namespace TraceJournal

/-- A part of a file that was read, and the place at which reading goes on. Source: tracelog-store
`SegmentCursor.file`. -/
structure Window where
  /-- Where the part starts in the file. -/
  start : Nat
  /-- The part itself. -/
  filled : List UInt8
  /-- Where reading goes on, inside the part or at its end. -/
  position : Nat
  start_le : start ≤ position
  le_end : position ≤ start + filled.length

namespace Window

/-- How many bytes are read at once. -/
def capacity : Nat := 8192

/-- A window with nothing in it, at a place of a file. -/
def atPlace (position : Nat) : Window where
  start := position
  filled := []
  position := position
  start_le := Nat.le_refl position
  le_end := Nat.le_refl position

/-- Moves to another place. The window is kept if the place is in it. Source: tracelog-store
`read_frame`, its `seek_relative`. -/
def seek (w : Window) (position : Nat) : Window :=
  if h : w.start ≤ position ∧ position ≤ w.start + w.filled.length then
    { w with position, start_le := h.1, le_end := h.2 }
  else atPlace position

/-- The bytes of the window that are still to be read. -/
def ahead (w : Window) : List UInt8 := w.filled.drop (w.position - w.start)

/-- Reads `count` bytes: first what is left in the window, then from the file. Answers nothing if
the file ends before. Source: tracelog-store `read_frame`, its `read_exact`. -/
def read (file : List UInt8) (count : Nat) (w : Window) : Option (List UInt8) × Window :=
  if h : count ≤ w.ahead.length then
    (some (w.ahead.take count),
      { w with
        position := w.position + count
        start_le := by have := w.start_le; omega
        le_end := by
          have := w.start_le
          have := w.le_end
          simp only [ahead, List.length_drop] at h
          omega })
  else
    let more := count - w.ahead.length
    let start := w.start + w.filled.length
    let rest := file.drop start
    if short : rest.length < more then (none, atPlace (start + rest.length))
    else
      let bytes := w.ahead ++ rest.take more
      if small : more < capacity then
        (some bytes, ⟨start, rest.take capacity, start + more, by omega,
          by simp only [List.length_take]; omega⟩)
      else (some bytes, atPlace (start + more))

/-- What stands at a place of a file, read through a window. Source: tracelog-store `read_frame`. -/
def frame (file : List UInt8) (offset : Nat) (w : Window) : Frame × Window :=
  if file.length < offset + Frame.headerSize then (.incomplete, w)
  else
    match (w.seek offset).read file Frame.headerSize with
    | (none, w) => (.incomplete, w)
    | (some header, w) =>
      let length := Frame.payloadLength header
      let next := offset + Frame.headerSize + length
      if length = 0 then (.corrupt next, w)
      else if file.length < next then (.incomplete, w)
      else
        match w.read file length with
        | (none, w) => (.incomplete, w)
        | (some payload, w) => (Frame.judge (Frame.payloadChecksum header) payload next, w)

end Window

end TraceJournal
