import TraceJournal.Proofs.Segment.Appending
import TraceJournal.Proofs.Segment.Misread

/-!
# Appending behind a torn frame

A file may end in the beginning of a frame whose writing was cut short. A store that is opened on it
appends behind those bytes, and so whatever is inserted is read as the rest of the torn frame first:
as long as there is too little of it, nothing that was inserted is found, and when there is enough,
the torn frame takes its missing bytes from the front of what was inserted.
-/

namespace TraceJournal

namespace Frame

section Torn

variable {d : Document} {torn : List UInt8}

/-- Four bytes of a torn frame tell the length of its payload. -/
theorem payloadLength_torn (fits : d.Fits) (cut : torn <+: encode d) (long : 4 ≤ torn.length)
    (more : List UInt8) : payloadLength (torn ++ more) = (payload d).length := by
  obtain ⟨missing, whole⟩ := cut
  rw [payloadLength, Bytes.toNumber_append long, ← toNumber_encode fits, ← whole,
    Bytes.toNumber_append long]

/-- What follows a torn frame is taken for the rest of it. -/
theorem read_torn (fits : d.Fits) (cut : torn <+: encode d) (long : 4 ≤ torn.length)
    (more : List UInt8) :
    read (torn ++ more) 0 =
      if torn.length + more.length < (encode d).length then incomplete
      else judge (payloadChecksum (torn ++ more))
        (((torn ++ more).drop headerSize).take (payload d).length) (encode d).length := by
  have full : (payload d).length ≠ 0 := by
    rw [payload, Document.toBytes_render]
    exact Nat.succ_ne_zero _
  simp only [read, List.drop_zero, Nat.zero_add, payloadLength_torn fits cut long, if_neg full,
    ← length_encode, List.length_append]
  split
  · next short =>
    rw [if_pos]
    rw [length_encode]
    omega
  · rfl

/-- A torn frame alone is no document. -/
theorem documents_torn_alone (fits : d.Fits) (cut : torn <+: encode d) (part : torn ≠ encode d) :
    documents torn = [] := by
  have shorter : torn.length < (encode d).length :=
    Nat.lt_of_le_of_ne cut.length_le fun same => part (cut.eq_of_length same)
  have first : read torn 0 = incomplete := by
    by_cases long : 4 ≤ torn.length
    · have whole := read_torn fits cut long []
      rw [List.append_nil, List.length_nil, Nat.add_zero, if_pos shorter] at whole
      exact whole
    · simp only [read, List.drop_zero]
      rw [if_pos]
      rw [headerSize]
      omega
  exact documents_of_incomplete first

/-- When there is too little behind a torn frame, none of it is found. -/
theorem documents_torn_short (fits : d.Fits) (cut : torn <+: encode d) (long : 4 ≤ torn.length)
    {more : List UInt8} (short : torn.length + more.length < (encode d).length) :
    documents (torn ++ more) = [] := by
  apply documents_of_incomplete
  rw [read_torn fits cut long, if_pos short]

/-- A torn frame that is filled takes its missing bytes from the frames behind it. If those are at
least four, one of them is the highest byte of a length, and fewer documents are found than there
are frames. -/
theorem length_documents_torn (fits : d.Fits) (cut : torn <+: encode d) (long : 5 ≤ torn.length)
    (missing : torn.length + 4 ≤ (encode d).length) {es : List Document} (some : es ≠ [])
    (back : ∀ e ∈ es, e.ReadsBack) (small : torn.length + total es < Bytes.lowLimit) :
    (documents (torn ++ encodeAll es)).length < es.length := by
  have first := read_torn fits cut (by omega) (encodeAll es)
  rw [length_encodeAll] at first
  split at first
  · rw [documents_of_incomplete first]
    exact List.length_pos_iff.mpr some
  · next enough =>
    have next : (read (torn ++ encodeAll es) 0).next? = (encode d).length := by
      rw [first, next?_judge]
    cases found : read (torn ++ encodeAll es) 0 with
    | incomplete =>
      rw [found] at next
      cases next
    | corrupt stop =>
      rw [found] at next
      cases next
      rw [documents_of_corrupt found, List.drop_append, List.drop_eq_nil_of_le cut.length_le,
        List.nil_append]
      exact (length_documents_drop back (by omega) _).2 (by omega) some
    | complete d' stop =>
      rw [found] at next
      cases next
      obtain ⟨e, rest, rfl⟩ := List.exists_cons_of_ne_nil some
      obtain ⟨b, highest, low⟩ := exists_highest (d := e) (encodeAll rest) (by
        rw [← encodeAll_cons, length_encodeAll]
        omega)
      have stands : (torn ++ encodeAll (e :: rest))[torn.length + 3]? = .some b := by
        rw [List.getElem?_append_right (Nat.le_add_right _ _), Nat.add_sub_cancel_left]
        exact highest
      have high := le_of_complete found (by rw [headerSize]; omega) (by omega) stands
      exact absurd low (UInt8.not_lt.mpr high)

end Torn

end Frame

/-- A store that is opened on the frames of `ds` and a torn frame appends behind that whatever is
inserted. It finds `ds`, and then what the torn frame and the new ones are read as in one piece:
nothing as long as nothing is inserted, or too little to fill the torn frame. Unless the torn frame
ends near its start or near its end, or the file is very large, it never finds all that was inserted
behind it. -/
theorem Segment.finds_behind_torn_end {path : Path} {maxSize file : Nat} {disk : Disk}
    {ds es : List Document} {d : Document} {torn : List UInt8}
    (at_path : disk.volume.file path = .ok file)
    (ends_torn : disk.volume.bytes file = Frame.encodeAll ds ++ torn)
    (readable : ∀ e ∈ ds, e.ReadsBack ∧ e.Fits) (fits : ∀ e ∈ d :: es, e.Fits)
    (cut : torn <+: Frame.encode d) (part : torn ≠ Frame.encode d)
    (room : es ≠ [] → Frame.total ds + torn.length + Frame.total es ≤ maxSize) :
    ∃ s disk', openAt path maxSize disk = (.ok s, disk') ∧
      let h := History.run ⟨s, disk', []⟩ (es.map .insert)
      h.inserted = es ∧
      h.Finds (ds ++ Frame.documents (torn ++ Frame.encodeAll es)) ∧
      (h.Finds (ds ++ es) ↔ Frame.documents (torn ++ Frame.encodeAll es) = es) ∧
      (es = [] → h.Finds ds) ∧
      (4 ≤ torn.length → torn.length + Frame.total es < (Frame.encode d).length → h.Finds ds) ∧
      (5 ≤ torn.length → torn.length + 4 ≤ (Frame.encode d).length →
        torn.length + Frame.total es < Bytes.lowLimit → (∀ e ∈ es, e.ReadsBack) →
        (h.Finds (ds ++ es) ↔ es = [])) := by
  obtain ⟨s, disk', opened, same⟩ := openAt_of_file at_path maxSize
  have fits_d := fits d List.mem_cons_self
  have start := History.Behind.of_openAt opened
  rw [same, ends_torn] at start
  refine ⟨s, disk', opened, ?_⟩
  have behind := start.run (fun e he => fits e (List.mem_cons_of_mem d he)) (by
    intro some
    rw [List.length_append, Frame.length_encodeAll, (inPlace_of_openAt opened).2.2.1]
    exact room some)
  rw [List.nil_append] at behind
  have finds := behind.finds
  rw [List.append_assoc, Frame.documents_encodeAll_append readable] at finds
  have alone : Frame.documents (torn ++ Frame.encodeAll []) = [] := by
    rw [Frame.encodeAll_nil, List.append_nil, Frame.documents_torn_alone fits_d cut part]
  refine ⟨behind.inserted_eq, finds, finds.iff.trans (List.append_right_inj ds), ?_, ?_, ?_⟩
  · rintro rfl
    rw [alone, List.append_nil] at finds
    exact finds
  · intro long short
    rw [← Frame.length_encodeAll] at short
    rw [Frame.documents_torn_short fits_d cut long short, List.append_nil] at finds
    exact finds
  · intro long missing small back
    rw [finds.iff, List.append_right_inj]
    constructor
    · intro all
      by_contra some
      have fewer := Frame.length_documents_torn fits_d cut long missing some back small
      rw [all] at fewer
      exact Nat.lt_irrefl _ fewer
    · rintro rfl
      exact alone

/-- Of the frame of the second document only 23 bytes are written. The third document, although it
was inserted, is not found. -/
theorem Segment.finds_behind_torn_end_of_frame :
    let time : Instant := ⟨0, 0, by decide, by decide, by decide, by decide⟩
    let first : Document := ⟨time, 1, .null⟩
    let second : Document := ⟨time, 2, .text "a text that makes it longer than the third one"⟩
    let third : Document := ⟨time, 3, .null⟩
    let disk : Disk := .ofFile (Frame.encodeAll [first] ++ (Frame.encode second).take 23)
    ∃ s disk', openAt ⟨"traces"⟩ 1000 disk = (.ok s, disk') ∧
      let h := History.run ⟨s, disk', []⟩ [.insert third]
      h.inserted = [third] ∧ h.Finds [first] ∧ ¬h.Finds [first, third] := by
  intro time first second third disk
  have ends_torn :
      disk.volume.bytes 0 = Frame.encodeAll [first] ++ (Frame.encode second).take 23 := rfl
  have readable : ∀ e ∈ [first, third], e.ReadsBack ∧ e.Fits := by decide +kernel
  have sizes : Frame.total [first] = 62 ∧ Frame.total [third] = 62 ∧
      (Frame.payload second).length = 98 := by decide +kernel
  obtain ⟨first_size, third_size, second_size⟩ := sizes
  have whole : (Frame.encode second).length = 106 := by
    rw [Frame.length_encode, second_size, Frame.headerSize]
  have written : ((Frame.encode second).take 23).length = 23 := by
    rw [List.length_take, whole]
    rfl
  have fits : ∀ e ∈ [second, third], e.Fits := by
    have second_fits : second.Fits := by
      change (Frame.payload second).length ≤ _
      rw [second_size, Frame.payloadLimit]
      omega
    intro e he
    rcases List.mem_cons.mp he with rfl | he
    · exact second_fits
    · exact (readable e (List.mem_cons_of_mem first he)).2
  have room : Frame.total [first] + ((Frame.encode second).take 23).length + Frame.total [third] ≤
      1000 := by
    omega
  have part : (Frame.encode second).take 23 ≠ Frame.encode second := by
    intro same
    rw [same] at written
    omega
  obtain ⟨s, disk', opened, inserted, -, -, -, short, never⟩ :=
    finds_behind_torn_end (Disk.file_ofFile _) ends_torn
      (fun e he => readable e (List.mem_append_left [third] he)) fits (List.take_prefix 23 _) part
      fun _ => room
  refine ⟨s, disk', opened, inserted, short (by omega) (by omega), ?_⟩
  intro all
  have none := (never (by omega) (by omega) (by rw [Bytes.lowLimit]; omega)
    fun e he => (readable e (List.mem_cons_of_mem first he)).1).mp all
  cases none

end TraceJournal
