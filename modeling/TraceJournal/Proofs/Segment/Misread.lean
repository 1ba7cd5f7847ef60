import TraceJournal.Proofs.Segment.Contents
import TraceJournal.Proofs.Store.Document

/-!
# Reading from within a frame

The highest byte of a length that is not very large is below a tabulator, and no document is read
from a payload with such a byte. So a reader that has lost the starts of frames never takes a whole
frame for a part of a payload, and finds fewer documents than frames are left.
-/

namespace TraceJournal

/-- Of a number below this, the highest of four bytes is below a tabulator. -/
def Bytes.lowLimit : Nat := 0x9000000

theorem Bytes.lt_of_toNumber_lt {bytes : List UInt8} {b : UInt8} (h : bytes[3]? = some b)
    (small : toNumber bytes < lowLimit) : b < 9 := by
  simp only [toNumber, h, Option.getD_some, lowLimit] at small
  rw [UInt8.lt_iff_toNat_lt]
  change b.toNat < 9
  omega

namespace Frame

/-- Where a document stands, its payload is what the header in front of it tells. -/
theorem payload_of_complete {file : List UInt8} {d : Document} {next : Nat}
    (h : read file 0 = complete d next) :
    next = headerSize + payloadLength file ∧ 0 < payloadLength file ∧
      Document.read ((file.drop headerSize).take (payloadLength file)) = .ok d := by
  obtain ⟨stands, rfl⟩ := read_eq_complete_iff.mp h
  have nonempty := stands.nonempty
  have decodes := stands.decodes
  rw [payloadAt, List.drop_zero] at decodes
  rw [List.drop_zero] at nonempty
  exact ⟨by rw [endAt, List.drop_zero, Nat.zero_add], nonempty, decodes⟩

/-- The bytes of the payload of a document that was found. -/
theorem le_of_complete {file : List UInt8} {d : Document} {next place : Nat} {b : UInt8}
    (h : read file 0 = complete d next) (behind : headerSize ≤ place) (inside : place < next)
    (stands : file[place]? = some b) : 9 ≤ b := by
  obtain ⟨next_eq, -, read⟩ := payload_of_complete h
  apply Document.le_of_read read
  apply List.mem_of_getElem? (i := place - headerSize)
  rw [List.getElem?_take_of_lt (by omega), List.getElem?_drop, Nat.add_sub_cancel' behind, stands]

/-- The highest byte of the length in front of a document that was found. -/
theorem lt_of_complete {file : List UInt8} {d : Document} {next : Nat} {b : UInt8}
    (h : read file 0 = complete d next) (small : file.length < Bytes.lowLimit)
    (stands : file[3]? = some b) : b < 9 := by
  have whole := (progress_of_complete h).2
  rw [(payload_of_complete h).1] at whole
  refine Bytes.lt_of_toNumber_lt stands ?_
  change payloadLength file < _
  omega

/-- The highest byte of the length in a frame, and whatever is behind it. -/
theorem exists_highest {d : Document} (more : List UInt8)
    (small : (encode d ++ more).length < Bytes.lowLimit) :
    ∃ b, (encode d ++ more)[3]? = some b ∧ b < 9 := by
  rw [List.length_append, length_encode] at small
  have fits : d.Fits := by
    change (payload d).length ≤ payloadLimit
    rw [payloadLimit]
    rw [Bytes.lowLimit] at small
    omega
  have stands : (encode d ++ more)[3]? = some (.ofNat ((payload d).length / 16777216)) := rfl
  refine ⟨_, stands, Bytes.lt_of_toNumber_lt stands ?_⟩
  rw [Bytes.toNumber_append (by rw [length_encode, headerSize]; omega), toNumber_encode fits]
  omega

theorem drop_encode (d : Document) (more : List UInt8) :
    (encode d ++ more).drop headerSize = payload d ++ more := by
  rw [encode, around, List.append_assoc]
  exact List.drop_left' rfl

/-- The bytes of a payload within its frame. -/
theorem le_of_encode {d : Document} (back : d.ReadsBack) {place : Nat} {b : UInt8}
    (behind : headerSize ≤ place) (stands : (encode d)[place]? = some b) : 9 ≤ b := by
  apply Document.le_of_read back
  apply List.mem_of_getElem? (i := place - headerSize)
  rw [← stands, encode, around, List.getElem?_append_right behind]
  rfl

/-- The `m` of `time`, which is the fifth byte of a payload, starts no document. -/
theorem read_drop_four (d : Document) (more : List UInt8) {length : Nat} (full : 0 < length) :
    ∃ fault, Document.read (((payload d ++ more).drop 4).take length) = .error fault := by
  have name : Text.bytesOf (Json.quotedChars "time") = [34, 116, 105, 109, 101, 34] := by
    decide +kernel
  obtain ⟨length, rfl⟩ := Nat.exists_eq_add_one.mpr full
  rw [payload, Document.toBytes_render, Document.fieldBytes, name]
  exact ⟨.malformed, rfl⟩

/-- From within a frame, no document is found that ends at the highest byte of the next length or
before. -/
theorem lt_of_complete_within {d d' : Document} (back : d.ReadsBack) {more : List UInt8}
    (small : (encode d ++ more).length < Bytes.lowLimit) {place next : Nat} (behind : 4 ≤ place)
    (found : read ((encode d ++ more).drop place) 0 = complete d' next) :
    (encode d).length + 3 < place + next := by
  obtain ⟨next_eq, full, document⟩ := payload_of_complete found
  rw [headerSize] at next_eq
  by_contra short
  have inside : place + 3 < (encode d).length := by omega
  have stands : ((encode d ++ more).drop place)[3]? = (encode d)[place + 3]? := by
    rw [List.getElem?_drop, List.getElem?_append_left inside]
  rw [List.getElem?_eq_getElem inside] at stands
  have low := lt_of_complete found (by rw [List.length_drop]; omega) stands
  by_cases same : place = 4
  · subst same
    obtain ⟨fault, refused⟩ := read_drop_four d more full
    rw [List.drop_drop, Nat.add_comm, ← List.drop_drop, drop_encode, refused] at document
    cases document
  · have payload : headerSize ≤ place + 3 := by
      rw [headerSize]
      omega
    have high := le_of_encode back payload (List.getElem?_eq_getElem inside)
    exact absurd low (UInt8.not_lt.mpr high)

/-- From any place on, no more documents are found than there are frames, and fewer if the place
is behind the highest byte of the first length. -/
theorem length_documents_drop {docs : List Document} (back : ∀ d ∈ docs, d.ReadsBack)
    (small : total docs < Bytes.lowLimit) (place : Nat) :
    (documents ((encodeAll docs).drop place)).length ≤ docs.length ∧
      (4 ≤ place → docs ≠ [] → (documents ((encodeAll docs).drop place)).length < docs.length) := by
  induction docs generalizing place with
  | nil =>
    rw [encodeAll_nil, List.drop_nil]
    exact ⟨Nat.le_refl 0, fun _ some => absurd rfl some⟩
  | cons d rest ih =>
    have whole : (encode d ++ encodeAll rest).length < Bytes.lowLimit := by
      rw [List.length_append, length_encodeAll, ← total_cons]
      exact small
    have later := ih (fun e he => back e (List.mem_cons_of_mem d he)) (by
      rw [total_cons] at small
      omega)
    have beyond (place : Nat) (h : (encode d).length ≤ place) :
        (encodeAll (d :: rest)).drop place = (encodeAll rest).drop (place - (encode d).length) := by
      rw [encodeAll_cons, List.drop_append, List.drop_eq_nil_of_le h, List.nil_append]
    -- The frame that is left first: what is read from within it, until reading is past its end.
    induction left : (encode d).length - place using Nat.strongRecOn generalizing place with
    | ind left inner =>
      rw [List.length_cons]
      by_cases outside : (encode d).length ≤ place
      · have count := (later (place - (encode d).length)).1
        rw [beyond place outside]
        exact ⟨by omega, fun _ _ => by omega⟩
      · have next_count (next : Nat) (h : 8 ≤ next) :
            (documents ((encodeAll (d :: rest)).drop (place + next))).length < rest.length + 1 :=
          (inner _ (by omega) (place + next) rfl).2 (by omega) (List.cons_ne_nil d rest)
        cases found : read ((encodeAll (d :: rest)).drop place) 0 with
        | incomplete =>
          rw [documents_of_incomplete found]
          exact ⟨Nat.zero_le _, fun _ _ => Nat.succ_pos _⟩
        | corrupt next =>
          have progress := (progress_of_corrupt found).1
          rw [headerSize, Nat.zero_add] at progress
          have count := next_count next progress
          rw [documents_of_corrupt found, List.drop_drop]
          exact ⟨Nat.le_of_lt count, fun _ _ => count⟩
        | complete d' next =>
          obtain ⟨progress, inside⟩ := progress_of_complete found
          rw [headerSize, Nat.zero_add] at progress
          have count := next_count next progress
          rw [documents_of_complete found, List.drop_drop, List.length_cons]
          refine ⟨count, fun behind _ => ?_⟩
          have past := lt_of_complete_within (back d List.mem_cons_self) whole behind found
          rw [List.length_drop, encodeAll_cons, List.length_append] at inside
          have more : rest ≠ [] := by
            rintro rfl
            rw [encodeAll_nil, List.length_nil] at inside
            omega
          have fewer := (later (place + next - (encode d).length)).2 (by omega) more
          rw [beyond (place + next) (by omega)]
          omega

end Frame

end TraceJournal
