import TraceJournal.Proofs.Bytes.Checksum
import TraceJournal.Proofs.Segment.Appending

/-!
# Damaged frames

What a frame tells of its length stands in its first four bytes. A change of a single byte behind
those, in the checksum or in the payload, is found out by the checksum, whatever the payload is; and
since the length still tells where the next frame starts, nothing but the document of the damaged
frame is lost.
-/

namespace TraceJournal

namespace Frame

/-- A payload behind a header that tells another checksum is passed over. -/
theorem read_of_checksum_ne {check payload : List UInt8} (four : check.length = 4)
    (nonempty : payload ≠ []) (fits : payload.length ≤ payloadLimit)
    (differs : (Bytes.checksum payload).toNat ≠ Bytes.toNumber check) (rest : List UInt8) :
    read (Bytes.ofNumber payload.length ++ check ++ payload ++ rest) 0 =
      corrupt (headerSize + payload.length) := by
  rw [read_header four nonempty fits]
  exact if_neg differs

/-- A change of a byte behind the length of a frame changes the checksum that the frame tells, or
else its payload. -/
theorem set_around {payload : List UInt8} {i : Nat} (behind : 4 ≤ i) (b : UInt8) :
    (around payload).set i b =
      if i < headerSize then
        Bytes.ofNumber payload.length ++
          (Bytes.ofNumber (Bytes.checksum payload).toNat).set (i - 4) b ++ payload
      else
        Bytes.ofNumber payload.length ++ Bytes.ofNumber (Bytes.checksum payload).toNat ++
          payload.set (i - headerSize) b := by
  have length := length_ofNumber payload.length
  have four := length_ofNumber (Bytes.checksum payload).toNat
  unfold around
  generalize Bytes.ofNumber payload.length = size at length ⊢
  generalize Bytes.ofNumber (Bytes.checksum payload).toNat = check at four ⊢
  have header : (size ++ check).length = headerSize := by
    rw [List.length_append, length, four, headerSize]
  split
  · next early =>
    rw [List.set_append_left _ _ (header.symm ▸ early),
      List.set_append_right _ _ (length.symm ▸ behind), length]
  · next late =>
    rw [List.set_append_right _ _ (header.symm ▸ Nat.le_of_not_lt late), header]

/-- A frame of whose checksum or payload one byte is another one is passed over. -/
theorem read_set_around {payload : List UInt8} {i : Nat} {b : UInt8} (nonempty : payload ≠ [])
    (fits : payload.length ≤ payloadLimit) (behind : 4 ≤ i)
    (changed : (around payload).set i b ≠ around payload) (rest : List UInt8) :
    read ((around payload).set i b ++ rest) 0 = corrupt (around payload).length := by
  rw [set_around behind] at changed ⊢
  rw [length_around]
  split at changed
  · next early =>
    -- The checksum that is told is another one.
    have check_ne : (Bytes.ofNumber (Bytes.checksum payload).toNat).set (i - 4) b ≠
        Bytes.ofNumber (Bytes.checksum payload).toNat := by
      intro same
      rw [same] at changed
      exact changed rfl
    have four := length_ofNumber (Bytes.checksum payload).toNat
    have four' : ((Bytes.ofNumber (Bytes.checksum payload).toNat).set (i - 4) b).length = 4 :=
      List.length_set.trans four
    rw [if_pos early]
    refine read_of_checksum_ne four' nonempty fits (fun same => check_ne ?_) rest
    exact Bytes.toNumber_injective four' four (same.symm.trans (toNumber_checksum payload).symm)
  · next late =>
    -- The payload is another one.
    have payload_ne : payload.set (i - headerSize) b ≠ payload := by
      intro same
      rw [same] at changed
      exact changed rfl
    have length : (payload.set (i - headerSize) b).length = payload.length := List.length_set
    have still : payload.set (i - headerSize) b ≠ [] := by
      rwa [ne_eq, List.set_eq_nil_iff]
    rw [if_neg late, ← length]
    refine read_of_checksum_ne (length_ofNumber _) still (length.symm ▸ fits) ?_ rest
    rw [toNumber_checksum]
    exact fun same => Bytes.checksum_set_ne payload_ne (UInt32.toNat_inj.mp same)

/-- Of the documents of a file the one in a damaged frame is lost, and no other one. -/
theorem documents_set_encodeAll {before after : List Document} {d : Document} {i : Nat} {b : UInt8}
    (readable : ∀ e ∈ before ++ d :: after, e.ReadsBack ∧ e.Fits) (behind : 4 ≤ i)
    (inside : i < (encode d).length) (other : (encode d)[i]? ≠ some b) :
    documents ((encodeAll (before ++ d :: after)).set (total before + i) b) = before ++ after := by
  have readable_before : ∀ e ∈ before, e.ReadsBack ∧ e.Fits :=
    fun e he => readable e (List.mem_append_left _ he)
  have readable_after : ∀ e ∈ after, e.ReadsBack ∧ e.Fits :=
    fun e he => readable e (List.mem_append_right before (List.mem_cons_of_mem d he))
  obtain ⟨back, fits⟩ := readable d (List.mem_append_right before List.mem_cons_self)
  have changed : (encode d).set i b ≠ encode d := by
    intro same
    rw [← same, List.getElem?_set_self inside] at other
    exact other rfl
  have place : (encodeAll (before ++ d :: after)).set (total before + i) b =
      encodeAll before ++ ((encode d).set i b ++ encodeAll after) := by
    rw [encodeAll_append, encodeAll_cons, ← length_encodeAll,
      List.set_append_right _ _ (Nat.le_add_right _ _), Nat.add_sub_cancel_left,
      List.set_append_left _ _ inside]
  have skipped : read ((encode d).set i b ++ encodeAll after) 0 = corrupt (encode d).length :=
    read_set_around (ReadsBack.payload_ne_nil back) fits behind changed _
  have length : ((encode d).set i b).length = (encode d).length := List.length_set
  rw [place, documents_encodeAll_append readable_before, documents_of_corrupt skipped,
    List.drop_left' length, documents_encodeAll readable_after]

end Frame

/-- In a file of frames of documents that are read back, one byte of the checksum or of the payload
of one of them is another one. A store that is opened on the file holds all the other documents, in
their order, and a cursor from a time that is not after theirs yields exactly those. -/
theorem Segment.loses_only_damaged {path : Path} {maxSize file : Nat} {disk : Disk}
    {before after : List Document} {d : Document} {i : Nat} {b : UInt8}
    (at_path : disk.volume.file path = .ok file)
    (readable : ∀ e ∈ before ++ d :: after, e.ReadsBack ∧ e.Fits)
    (behind : 4 ≤ i) (inside : i < (Frame.encode d).length)
    (other : (Frame.encode d)[i]? ≠ some b)
    (damaged : disk.volume.bytes file =
      (Frame.encodeAll (before ++ d :: after)).set (Frame.total before + i) b) :
    ∃ s disk', openAt path maxSize disk = (.ok s, disk') ∧
      s.documents disk' = .ok (before ++ after) ∧
      ∀ source, (∀ e ∈ before ++ d :: after, source ≤ e.time) →
        ∃ c, (Store.segment s disk').tailFrom source = .ok c ∧
          c.Yields (.segment s disk') (before ++ after) := by
  obtain ⟨s, disk', opened, same⟩ := openAt_of_file at_path maxSize
  have finds := (History.Behind.of_openAt opened).finds
  rw [same, damaged, Frame.encodeAll_nil, List.append_nil,
    Frame.documents_set_encodeAll readable behind inside other] at finds
  refine ⟨s, disk', opened, finds.documents, fun source early => ?_⟩
  obtain ⟨c, cursor, yields⟩ := finds.cursor source
  have all : (before ++ after).filter (fun e => source ≤ e.time) = before ++ after := by
    refine List.filter_eq_self.mpr fun e he => decide_eq_true (early e ?_)
    exact ((List.sublist_cons_self d after).append_left before).mem he
  rw [all] at yields
  exact ⟨c, cursor, yields⟩

/-- In the middle one of three frames, a byte of the payload is zero. -/
theorem Segment.loses_only_damaged_second :
    let time : Instant := ⟨0, 0, by decide, by decide, by decide, by decide⟩
    let d (serial : UInt64) : Document := ⟨time, serial, .null⟩
    let disk : Disk := .ofFile ((Frame.encodeAll [d 1, d 2, d 3]).set 102 0)
    ∃ s disk', openAt ⟨"traces"⟩ 1000 disk = (.ok s, disk') ∧
      s.documents disk' = .ok [d 1, d 3] ∧
      ∃ c, (Store.segment s disk').tailFrom time = .ok c ∧
        c.Yields (.segment s disk') [d 1, d 3] := by
  intro time d disk
  have readable : ∀ e ∈ [d 1] ++ d 2 :: [d 3], e.ReadsBack ∧ e.Fits := by decide +kernel
  have inside : 40 < (Frame.encode (d 2)).length := by decide +kernel
  have other : (Frame.encode (d 2))[40]? ≠ some 0 := by decide +kernel
  have place : Frame.total [d 1] + 40 = 102 := by decide +kernel
  have damaged : disk.volume.bytes 0 =
      (Frame.encodeAll ([d 1] ++ d 2 :: [d 3])).set (Frame.total [d 1] + 40) 0 := by
    rw [place]
    rfl
  obtain ⟨s, disk', opened, documents, cursors⟩ := loses_only_damaged (Disk.file_ofFile _)
    readable (by decide) inside other damaged
  exact ⟨s, disk', opened, documents, cursors time (by decide)⟩

end TraceJournal
