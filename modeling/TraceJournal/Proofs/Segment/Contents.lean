import Mathlib.Control.Monad.Basic
import TraceJournal.Proofs.Segment.Scan

/-!
# Files of whole frames

The bytes of the frames of some documents, one after the other. A document that is read back from
its own payload, and whose payload is not too long for a header, is found in such a file at the
place of its frame; the file holds exactly its documents, and then what follows them.
-/

namespace TraceJournal

/-- The document is what its own payload is read as. -/
def Document.ReadsBack (d : Document) : Prop := Document.read (Frame.payload d) = .ok d

/-- The payload of the document is not too long for a frame. -/
def Document.Fits (d : Document) : Prop := (Frame.payload d).length ≤ Frame.payloadLimit

instance (d : Document) : Decidable d.ReadsBack := inferInstanceAs (Decidable (_ = _))

instance (d : Document) : Decidable d.Fits := inferInstanceAs (Decidable (_ ≤ _))

namespace Frame

/-- The bytes of the frames of some documents. -/
def encodeAll (docs : List Document) : List UInt8 := docs.flatMap encode

/-- The number of bytes of the frames of some documents: a header and a payload for each. -/
def total : List Document → Nat
  | [] => 0
  | d :: rest => headerSize + (payload d).length + total rest

/-- Some documents with the places of their frames, of which the first one starts at `start`. -/
def places (start : Nat) : List Document → List (Nat × Document)
  | [] => []
  | d :: rest => (start, d) :: places (start + (encode d).length) rest

theorem length_ofNumber (n : Nat) : (Bytes.ofNumber n).length = 4 := rfl

theorem length_around (payload : List UInt8) :
    (around payload).length = headerSize + payload.length := by
  simp only [around, List.length_append, length_ofNumber, headerSize]

theorem length_encode (d : Document) : (encode d).length = headerSize + (payload d).length :=
  length_around _

/-- The header of a frame tells the length of its payload. -/
theorem toNumber_encode {d : Document} (fits : d.Fits) :
    Bytes.toNumber (encode d) = (payload d).length := by
  have small : (payload d).length ≤ payloadLimit := fits
  rw [encode, around, List.append_assoc, Bytes.toNumber_ofNumber]
  rw [payloadLimit] at small
  omega

@[simp] theorem encodeAll_nil : encodeAll [] = [] := rfl

@[simp] theorem encodeAll_cons (d : Document) (docs : List Document) :
    encodeAll (d :: docs) = encode d ++ encodeAll docs := rfl

@[simp] theorem encodeAll_append (docs more : List Document) :
    encodeAll (docs ++ more) = encodeAll docs ++ encodeAll more := by
  simp only [encodeAll, List.flatMap_append]

@[simp] theorem total_nil : total [] = 0 := rfl

@[simp] theorem total_cons (d : Document) (docs : List Document) :
    total (d :: docs) = (encode d).length + total docs := by
  rw [total, length_encode]

@[simp] theorem total_append (docs more : List Document) :
    total (docs ++ more) = total docs + total more := by
  induction docs with
  | nil => rw [List.nil_append, total_nil, Nat.zero_add]
  | cons d rest ih => rw [List.cons_append, total_cons, ih, total_cons, Nat.add_assoc]

theorem length_encodeAll (docs : List Document) : (encodeAll docs).length = total docs := by
  induction docs with
  | nil => rfl
  | cons d rest ih => rw [encodeAll_cons, List.length_append, ih, total_cons]

theorem map_snd_places (start : Nat) (docs : List Document) :
    (places start docs).map (·.2) = docs := by
  induction docs generalizing start with
  | nil => rfl
  | cons d rest ih => rw [places, List.map_cons, ih]

/-! ## Reading a frame that was written -/

/-- A payload reads as something only if it has a byte. -/
theorem ReadsBack.payload_ne_nil {d : Document} (h : d.ReadsBack) : payload d ≠ [] := by
  intro empty
  have hr : Document.read (payload d) = .ok d := h
  rw [empty] at hr
  cases hr

/-- A header tells the whole checksum of its payload. -/
theorem toNumber_checksum (payload : List UInt8) :
    Bytes.toNumber (Bytes.ofNumber (Bytes.checksum payload).toNat) =
      (Bytes.checksum payload).toNat := by
  have known := Bytes.toNumber_ofNumber (UInt32.toNat_lt (Bytes.checksum payload)) []
  rwa [List.append_nil] at known

/-- Where a payload stands behind a header, reading judges it by the checksum in that. -/
theorem read_header {check payload : List UInt8} (four : check.length = 4)
    (nonempty : payload ≠ []) (fits : payload.length ≤ payloadLimit) (rest : List UInt8) :
    read (Bytes.ofNumber payload.length ++ check ++ payload ++ rest) 0 =
      judge (Bytes.toNumber check) payload (headerSize + payload.length) := by
  have positive : 0 < payload.length := List.length_pos_iff.mpr nonempty
  have header : (Bytes.ofNumber payload.length ++ check).length = headerSize := by
    rw [List.length_append, length_ofNumber, four, headerSize]
  have length : payloadLength (Bytes.ofNumber payload.length ++ check ++ payload ++ rest) =
      payload.length := by
    rw [payloadLength, List.append_assoc, List.append_assoc, Bytes.toNumber_ofNumber]
    rw [payloadLimit] at fits
    omega
  have checksum : payloadChecksum (Bytes.ofNumber payload.length ++ check ++ payload ++ rest) =
      Bytes.toNumber check := by
    rw [payloadChecksum, List.append_assoc, List.append_assoc,
      List.drop_left' (length_ofNumber _), Bytes.toNumber_append (Nat.le_of_eq four.symm)]
  have stands : ((Bytes.ofNumber payload.length ++ check ++ payload ++ rest).drop
      headerSize).take payload.length = payload := by
    rw [List.append_assoc _ payload, List.drop_left' header, List.take_left]
  have long : headerSize + payload.length ≤
      (Bytes.ofNumber payload.length ++ check ++ payload ++ rest).length := by
    rw [List.length_append, List.length_append, header]
    omega
  simp only [read, List.drop_zero, Nat.zero_add, length, checksum, stands]
  rw [if_neg (by omega), if_neg (by omega), if_neg (by omega)]

/-- Where a frame around a payload stands, reading judges the payload by its own checksum. -/
theorem read_around {payload : List UInt8} (nonempty : payload ≠ [])
    (fits : payload.length ≤ payloadLimit) (rest : List UInt8) :
    read (around payload ++ rest) 0 =
      match Document.read payload with
      | .ok d => complete d (around payload).length
      | .error _ => corrupt (around payload).length := by
  rw [length_around, around, read_header (length_ofNumber _) nonempty fits, toNumber_checksum]
  unfold judge
  cases Document.read payload with
  | ok d => exact if_pos rfl
  | error e => exact if_pos rfl

/-- The frame of a document that is read back. -/
theorem read_encode {d : Document} (h : d.ReadsBack) (fits : d.Fits) (rest : List UInt8) :
    read (encode d ++ rest) 0 = complete d (encode d).length := by
  have hr : Document.read (payload d) = .ok d := h
  rw [encode, read_around (ReadsBack.payload_ne_nil h) fits, hr]

/-- A payload of a length that is not too long makes a frame that is longer by its header. -/
theorem fits_of_length {d : Document} {n : Nat} (size : (payload d).length = n)
    (small : n ≤ payloadLimit) : d.Fits ∧ (encode d).length = headerSize + n :=
  ⟨Nat.le_trans (Nat.le_of_eq size) small, by rw [length_encode, size]⟩

/-- A document that keeps nothing is read back from its frame of 62 bytes. -/
theorem encode_keeping_nothing :
    let d : Document := ⟨⟨0, 0, by decide, by decide, by decide, by decide⟩, 1, .null⟩
    d.ReadsBack ∧ d.Fits ∧ (encode d).length = 62 := by
  intro d
  have back : d.ReadsBack := by decide +kernel
  have size : (payload d).length = 54 := by decide +kernel
  exact ⟨back, fits_of_length size (by decide)⟩

/-- Reading passes over the frames of documents that are read back, each at its place. -/
theorem passes_encodeAll {docs : List Document} (h : ∀ d ∈ docs, d.ReadsBack ∧ d.Fits)
    (front rest : List UInt8) :
    Passes (front ++ encodeAll docs ++ rest) front.length (places front.length docs)
      (front.length + total docs) := by
  induction docs generalizing front with
  | nil => exact .stay
  | cons d docs ih =>
    obtain ⟨hd, fits⟩ := h d List.mem_cons_self
    have here : read (front ++ encodeAll (d :: docs) ++ rest) front.length =
        complete d (front.length + (encode d).length) := by
      rw [read_eq_shift, List.append_assoc, List.drop_left, encodeAll_cons, List.append_assoc,
        read_encode hd fits, shift]
    have later := ih (fun e he => h e (List.mem_cons_of_mem d he)) (front ++ encode d)
    rw [List.append_assoc front, ← encodeAll_cons, List.length_append, Nat.add_assoc,
      ← total_cons] at later
    exact (Passes.stay.document here).trans later

/-- What follows the frames of documents that are read back is read as if it stood alone. -/
theorem scan_encodeAll_append {docs : List Document} (h : ∀ d ∈ docs, d.ReadsBack ∧ d.Fits)
    (rest : List UInt8) :
    scan (encodeAll docs ++ rest) =
      places 0 docs ++ (scan rest).map fun (place, d) => (total docs + place, d) := by
  have passes := passes_encodeAll h [] rest
  simp only [List.nil_append, List.length_nil, Nat.zero_add] at passes
  rw [scan_eq_scanAt, passes.scanAt_eq, scan_eq_scanAt]
  have moved := scanAt_drop (encodeAll docs ++ rest) (total docs) 0
  rw [List.drop_left' (length_encodeAll docs), Nat.add_zero] at moved
  rw [moved]

/-- A file of frames holds their documents, and then those of what follows. -/
theorem documents_encodeAll_append {docs : List Document} (h : ∀ d ∈ docs, d.ReadsBack ∧ d.Fits)
    (rest : List UInt8) : documents (encodeAll docs ++ rest) = docs ++ documents rest := by
  rw [documents, scan_encodeAll_append h, List.map_append, map_snd_places, List.map_map]
  rfl

theorem scan_encodeAll {docs : List Document} (h : ∀ d ∈ docs, d.ReadsBack ∧ d.Fits) :
    scan (encodeAll docs) = places 0 docs := by
  have hs := scan_encodeAll_append h []
  rw [List.append_nil] at hs
  rw [hs]
  exact List.append_nil _

/-- A file of frames holds exactly their documents. -/
theorem documents_encodeAll {docs : List Document} (h : ∀ d ∈ docs, d.ReadsBack ∧ d.Fits) :
    documents (encodeAll docs) = docs := by
  rw [documents, scan_encodeAll h, map_snd_places]

end Frame

end TraceJournal
