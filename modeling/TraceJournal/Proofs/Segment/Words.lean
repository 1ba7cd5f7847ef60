import TraceJournal.Proofs.Segment.Reading

/-!
# Frames read with words

Places in a file are reckoned with in words of 64 bits. A sum of a place and a length has to fit into
a word, and the distance by which a window moves into a signed word. Here a frame is read with every
such number checked, and so is the number of bytes that are asked for at once. As long as the file is
shorter than `2 ^ 63` bytes no check fails, whatever stands in the file and whatever is left in the
window; the frame is then the same as without the checks.
-/

namespace TraceJournal

namespace Word

/-- How many words there are. -/
def limit : Nat := 0x10000000000000000

/-- How many signed words are not negative. -/
def signedLimit : Nat := 0x8000000000000000

/-- A sum, if it fits into a word. -/
def sum? (a b : Nat) : Option Nat := if a + b < limit then some (a + b) else none

/-- What a word stands for when it is taken as signed: the upper half is negative. -/
def signed (a : Nat) : Int := if a < signedLimit then a else a - limit

/-- The difference of two words that are taken as signed, if it fits into a signed word. -/
def difference? (a b : Nat) : Option Int :=
  let difference := signed a - signed b
  if -signedLimit ≤ difference ∧ difference < signedLimit then some difference else none

theorem sum?_of_lt {a b : Nat} (h : a + b < limit) : sum? a b = some (a + b) := if_pos h

theorem signed_of_lt {a : Nat} (h : a < signedLimit) : signed a = a := if_pos h

/-- From one place to another that a signed word holds, the distance fits. -/
theorem difference?_of_lt {a b : Nat} (ha : a < signedLimit) (hb : b < signedLimit) :
    difference? a b = some ((a : Int) - b) := by
  unfold difference?
  simp only [signed_of_lt ha, signed_of_lt hb]
  apply if_pos
  omega

end Word

namespace Window

variable {w : Window} {file : List UInt8}

/-- Moves to another place by the distance to it, if that fits. -/
def seek? (w : Window) (place : Nat) : Option Window :=
  if w.position = place then some w
  else (Word.difference? place w.position).map fun distance =>
    w.seek ((w.position : Int) + distance).toNat

/-- What stands at a place of a file, read through a window with all numbers checked: nothing, if one
of them does not fit, or if more bytes are asked for at once than the file has. -/
def frame? (file : List UInt8) (offset : Nat) (w : Window) : Option (Frame × Window) := do
  let start ← Word.sum? offset Frame.headerSize
  if file.length < start then return (.incomplete, w)
  match (← w.seek? offset).read file Frame.headerSize with
  | (none, w) => return (.incomplete, w)
  | (some header, w) =>
    let length := Frame.payloadLength header
    let next ← Word.sum? start length
    if length = 0 then return (.corrupt next, w)
    if file.length < next then return (.incomplete, w)
    if file.length < length then none
    match w.read file length with
    | (none, w) => return (.incomplete, w)
    | (some payload, w) => return (Frame.judge (Frame.payloadChecksum header) payload next, w)

/-- The part of a file that the window holds ends at a place that a signed word holds. -/
def Short (w : Window) : Prop := w.start + w.filled.length < Word.signedLimit

theorem short_atPlace {place : Nat} (h : place < Word.signedLimit) : (atPlace place).Short := h

/-- Going to the place where reading goes on changes nothing. -/
theorem seek_position (w : Window) : w.seek w.position = w := dif_pos ⟨w.start_le, w.le_end⟩

namespace Short

theorem position_lt (h : w.Short) : w.position < Word.signedLimit :=
  Nat.lt_of_le_of_lt w.le_end h

theorem seek (h : w.Short) {place : Nat} (within : place < Word.signedLimit) :
    (w.seek place).Short := by
  unfold Window.seek
  split
  · exact h
  · exact short_atPlace within

/-- The distance to a place that a signed word holds leads there. -/
theorem seek?_eq (h : w.Short) {place : Nat} (within : place < Word.signedLimit) :
    w.seek? place = some (w.seek place) := by
  unfold seek?
  by_cases here : w.position = place
  · rw [if_pos here, ← here, seek_position]
  · have there : ((w.position : Int) + ((place : Int) - w.position)).toNat = place := by omega
    rw [if_neg here, Word.difference?_of_lt within h.position_lt, Option.map_some, there]

/-- Whatever is read, the window ends in the file or where it ended before. -/
theorem read (h : w.Short) (short : file.length < Word.signedLimit) (count : Nat) :
    (w.read file count).2.Short := by
  unfold Short at h
  unfold Window.read
  split
  · exact h
  · simp only
    split
    · apply short_atPlace
      rw [List.length_drop]
      omega
    · next enough =>
      rw [List.length_drop] at enough
      split
      · simp only [Short, List.length_take, List.length_drop]
        omega
      · apply short_atPlace
        omega

/-- Reading a frame passes all checks, and is not changed by them. -/
theorem frame?_eq (h : w.Short) (short : file.length < Word.signedLimit) {offset : Nat}
    (within : offset ≤ file.length) : w.frame? file offset = some (w.frame file offset) := by
  have size : Frame.headerSize = 8 := rfl
  have limits : Word.limit = 2 * Word.signedLimit := rfl
  have large : 4294967296 + 8 < Word.signedLimit := by decide
  have start : Word.sum? offset Frame.headerSize = some (offset + Frame.headerSize) :=
    Word.sum?_of_lt (by omega)
  simp only [frame?, frame, start, h.seek?_eq (Nat.lt_of_le_of_lt within short),
    Option.bind_eq_bind, Option.bind_some]
  by_cases cut : file.length < offset + Frame.headerSize
  · simp only [if_pos cut, Option.pure_def]
  · simp only [if_neg cut]
    generalize (w.seek offset).read file Frame.headerSize = sought
    obtain ⟨_ | header, w'⟩ := sought
    · rfl
    · have length : Frame.payloadLength header < 4294967296 := Bytes.toNumber_lt header
      have next : Word.sum? (offset + Frame.headerSize) (Frame.payloadLength header) =
          some (offset + Frame.headerSize + Frame.payloadLength header) :=
        Word.sum?_of_lt (by omega)
      simp only [next, Option.bind_some]
      by_cases empty : Frame.payloadLength header = 0
      · simp only [if_pos empty, Option.pure_def]
      · by_cases missing :
            file.length < offset + Frame.headerSize + Frame.payloadLength header
        · simp only [if_neg empty, if_pos missing, Option.pure_def]
        · have asked : ¬file.length < Frame.payloadLength header := by omega
          simp only [if_neg empty, if_neg missing, if_neg asked]
          generalize w'.read file (Frame.payloadLength header) = answer
          obtain ⟨_ | payload, w''⟩ := answer <;> rfl

theorem frame (h : w.Short) (short : file.length < Word.signedLimit) {offset : Nat}
    (within : offset ≤ file.length) : (w.frame file offset).2.Short := by
  have sought : (w.seek offset).Short := h.seek (Nat.lt_of_le_of_lt within short)
  have header := sought.read short Frame.headerSize
  unfold Window.frame
  split
  · exact h
  · split
    · next missing => rwa [missing] at header
    · next bytes w' read =>
      rw [read] at header
      simp only
      split
      · exact header
      · split
        · exact header
        · have payload := header.read short (Frame.payloadLength bytes)
          split
          · next missing => rwa [missing] at payload
          · next read => rwa [read] at payload

end Short

/-- A frame that can be passed over is followed by a place behind its header and in the file, whatever
the window holds. -/
theorem frame_progress {offset next : Nat} (h : (w.frame file offset).1.next? = some next) :
    offset + Frame.headerSize ≤ next ∧ next ≤ file.length := by
  unfold Window.frame at h
  split at h
  · cases h
  · next cut =>
    split at h
    · cases h
    · next header _ _ =>
      simp only at h
      split at h
      · next empty =>
        simp only [Frame.next?, Option.some.injEq, empty] at h
        omega
      · split at h
        · cases h
        · next whole =>
          split at h
          · cases h
          · rw [Frame.next?_judge, Option.some.injEq] at h
            omega

/-- What a round comes to that reads a frame through a short window and passes all checks. -/
structure Rounded (w : Window) (file : List UInt8) (offset : Nat) (frame : Frame) (w' : Window) :
    Prop where
  read : w.frame file offset = (frame, w')
  short : w'.Short
  progress : ∀ next, frame.next? = some next →
    offset + Frame.headerSize ≤ next ∧ next ≤ file.length

namespace Short

theorem rounded (h : w.Short) (short : file.length < Word.signedLimit) {offset : Nat}
    (within : offset ≤ file.length) :
    w.Rounded file offset (w.frame file offset).1 (w.frame file offset).2 :=
  ⟨rfl, h.frame short within, fun _ => frame_progress⟩

theorem rounded_of_frame? (h : w.Short) (short : file.length < Word.signedLimit) {offset : Nat}
    (within : offset ≤ file.length) {frame : Frame} {w' : Window}
    (read : w.frame? file offset = some (frame, w')) : w.Rounded file offset frame w' := by
  have same := Option.some.inj ((h.frame?_eq short within).symm.trans read)
  have rounded := h.rounded short within
  rwa [same] at rounded

end Short

/-- A window that shows the file tells what stands there. -/
theorem Rounded.of_shows {offset : Nat} {frame : Frame} {w' : Window}
    (h : w.Rounded file offset frame w') (shows : w.Shows file) :
    Frame.read file offset = frame ∧ w'.Shows file := by
  obtain ⟨shown, read, shows'⟩ := shows.frame offset
  cases h.read.symm.trans read
  exact ⟨rfl, shows'⟩

end Window

end TraceJournal
