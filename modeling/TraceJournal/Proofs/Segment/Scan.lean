import TraceJournal.Store.Segment.Frame

/-!
# Scanning frames

A scan without its bound on rounds: what a file holds from a place on is what stands there followed
by what it holds from the next frame on. Bytes at the end of a file never change what was read
before them, and what stands at a place does not depend on the bytes in front of it.
-/

namespace TraceJournal

/-- The first four bytes alone make the number. -/
theorem Bytes.toNumber_append {bytes : List UInt8} (h : 4 ≤ bytes.length) (more : List UInt8) :
    toNumber (bytes ++ more) = toNumber bytes := by
  have same (n : Nat) (hn : n < 4) : (bytes ++ more)[n]? = bytes[n]? :=
    List.getElem?_append_left (by omega)
  simp only [toNumber, same 0 (by omega), same 1 (by omega), same 2 (by omega), same 3 (by omega)]

/-- Whatever is behind the first four bytes can be left out. -/
theorem Bytes.toNumber_take {n : Nat} (h : 4 ≤ n) (bytes : List UInt8) :
    toNumber (bytes.take n) = toNumber bytes := by
  have same (i : Nat) (hi : i < 4) : (bytes.take n)[i]? = bytes[i]? :=
    List.getElem?_take_of_lt (by omega)
  simp only [toNumber, same 0 (by omega), same 1 (by omega), same 2 (by omega), same 3 (by omega)]

namespace Frame

/-! ## One frame -/

/-- The same frame in a file with `n` more bytes in front. -/
def shift (n : Nat) : Frame → Frame
  | complete d next => complete d (n + next)
  | corrupt next => corrupt (n + next)
  | incomplete => incomplete

theorem judge_shift (checksum : Nat) (payload : List UInt8) (n next : Nat) :
    judge checksum payload (n + next) = (judge checksum payload next).shift n := by
  unfold judge
  split
  · split <;> rfl
  · rfl

/-- What stands at a place does not depend on the bytes in front of it. -/
theorem read_eq_shift (file : List UInt8) (offset : Nat) :
    read file offset = (read (file.drop offset) 0).shift offset := by
  simp only [read, List.drop_zero, Nat.zero_add, Nat.add_assoc]
  split
  · rfl
  · split
    · rfl
    · split
      · rfl
      · exact judge_shift _ _ _ _

/-- Bytes behind a whole frame do not change it. -/
theorem read_append {file : List UInt8} {offset : Nat} (h : read file offset ≠ incomplete)
    (more : List UInt8) : read (file ++ more) offset = read file offset := by
  simp only [read] at h ⊢
  split at h
  · exact absurd rfl h
  · next header =>
    simp only [headerSize, List.length_drop] at header
    have hd : (file ++ more).drop offset = file.drop offset ++ more :=
      List.drop_append_of_le_length (by omega)
    have hl : payloadLength (file.drop offset ++ more) = payloadLength (file.drop offset) :=
      Bytes.toNumber_append (by rw [List.length_drop]; omega) more
    have hc : payloadChecksum (file.drop offset ++ more) = payloadChecksum (file.drop offset) := by
      unfold payloadChecksum
      rw [List.drop_append_of_le_length (by rw [List.length_drop]; omega)]
      exact Bytes.toNumber_append (by rw [List.length_drop, List.length_drop]; omega) more
    rw [hd, hl, hc]
    have longer : ¬(file.drop offset ++ more).length < headerSize := by
      rw [List.length_append, List.length_drop, headerSize]; omega
    have long : ¬(file.drop offset).length < headerSize := by
      rw [List.length_drop, headerSize]; omega
    rw [if_neg longer, if_neg long]
    split at h
    · next empty => rw [if_pos empty, if_pos empty]
    · next full =>
      rw [if_neg full, if_neg full]
      split at h
      · exact absurd rfl h
      · next whole =>
        simp only [headerSize, List.length_drop] at whole
        have wholeLonger : ¬(file.drop offset ++ more).length <
            headerSize + payloadLength (file.drop offset) := by
          rw [List.length_append, List.length_drop, headerSize]; omega
        have wholeLong : ¬(file.drop offset).length <
            headerSize + payloadLength (file.drop offset) := by
          rw [List.length_drop, headerSize]; omega
        rw [if_neg wholeLonger, if_neg wholeLong]
        congr 1
        rw [List.drop_append_of_le_length (by rw [List.length_drop, headerSize]; omega),
          List.take_append_of_le_length (by
            rw [List.length_drop, List.length_drop, headerSize]; omega)]

theorem read_append_of_complete {file : List UInt8} {offset next : Nat} {d : Document}
    (h : read file offset = complete d next) (more : List UInt8) :
    read (file ++ more) offset = complete d next := by
  rw [read_append (by rw [h]; nofun), h]

theorem read_append_of_corrupt {file : List UInt8} {offset next : Nat}
    (h : read file offset = corrupt next) (more : List UInt8) :
    read (file ++ more) offset = corrupt next := by
  rw [read_append (by rw [h]; nofun), h]

/-- Where the frame ends that starts at a place, as its header tells. -/
def endAt (file : List UInt8) (place : Nat) : Nat :=
  place + headerSize + payloadLength (file.drop place)

/-- What stands behind the header at a place, as many bytes as that tells. -/
def payloadAt (file : List UInt8) (place : Nat) : List UInt8 :=
  ((file.drop place).drop headerSize).take (payloadLength (file.drop place))

/-- A whole frame stands at a place of a file, with a document in its payload. -/
structure Stands (file : List UInt8) (place : Nat) (d : Document) : Prop where
  inside : endAt file place ≤ file.length
  nonempty : 0 < payloadLength (file.drop place)
  checksum : (Bytes.checksum (payloadAt file place)).toNat = payloadChecksum (file.drop place)
  decodes : Document.read (payloadAt file place) = .ok d

/-- Reading finds the documents of whole frames, and no others. -/
theorem read_eq_complete_iff {file : List UInt8} {place next : Nat} {d : Document} :
    read file place = complete d next ↔ Stands file place d ∧ next = endAt file place := by
  have left : (file.drop place).length = file.length - place := List.length_drop
  have ends : endAt file place = place + headerSize + payloadLength (file.drop place) := rfl
  constructor
  · intro h
    simp only [read] at h
    split at h
    · cases h
    · next header =>
      split at h
      · cases h
      · next full =>
        split at h
        · cases h
        · next whole =>
          unfold judge at h
          split at h
          · next same =>
            split at h
            · next decodes =>
              cases h
              refine ⟨⟨?_, Nat.pos_of_ne_zero full, same, decodes⟩, rfl⟩
              simp only [headerSize] at *
              omega
            · cases h
          · cases h
  · rintro ⟨⟨inside, nonempty, checksum, decodes⟩, rfl⟩
    rw [ends] at inside
    unfold payloadAt at checksum decodes
    simp only [read, judge]
    rw [if_neg (by omega), if_neg (by omega), if_neg (by omega), if_pos checksum, decodes, ends]

/-! ## All frames from a place on -/

/-- The documents from a place of a file on, with the places of their frames. -/
def scanAt (file : List UInt8) (offset : Nat) : List (Nat × Document) :=
  scanFrom file (file.length + 1) offset

theorem scan_eq_scanAt (file : List UInt8) : scan file = scanAt file 0 := rfl

theorem progress_of_complete {file : List UInt8} {offset next : Nat} {d : Document}
    (h : read file offset = complete d next) : offset + headerSize ≤ next ∧ next ≤ file.length :=
  read_progress (by rw [h]; rfl)

theorem progress_of_corrupt {file : List UInt8} {offset next : Nat}
    (h : read file offset = corrupt next) : offset + headerSize ≤ next ∧ next ≤ file.length :=
  read_progress (by rw [h]; rfl)

/-- Any number of rounds above the number of bytes that are left gives the same documents. -/
theorem scanFrom_congr (file : List UInt8) (rounds others offset : Nat)
    (hr : file.length - offset < rounds) (ho : file.length - offset < others) :
    scanFrom file rounds offset = scanFrom file others offset := by
  induction rounds generalizing others offset with
  | zero => omega
  | succ rounds ih =>
    cases others with
    | zero => omega
    | succ others =>
      simp only [scanFrom]
      cases h : read file offset with
      | complete d next =>
        have hp := progress_of_complete h
        simp only [headerSize] at hp
        simp only [ih others next (by omega) (by omega)]
      | corrupt next =>
        have hp := progress_of_corrupt h
        simp only [headerSize] at hp
        simp only [ih others next (by omega) (by omega)]
      | incomplete => rfl

/-- A scan step by step. -/
theorem scanAt_eq (file : List UInt8) (offset : Nat) :
    scanAt file offset =
      match read file offset with
      | complete d next => (offset, d) :: scanAt file next
      | corrupt next => scanAt file next
      | incomplete => [] := by
  rw [scanAt, scanFrom]
  cases h : read file offset with
  | complete d next =>
    have hp := progress_of_complete h
    simp only [headerSize] at hp
    simp only [scanAt]
    rw [scanFrom_congr file file.length (file.length + 1) next (by omega) (by omega)]
  | corrupt next =>
    have hp := progress_of_corrupt h
    simp only [headerSize] at hp
    simp only [scanAt]
    rw [scanFrom_congr file file.length (file.length + 1) next (by omega) (by omega)]
  | incomplete => rfl

theorem scanAt_of_complete {file : List UInt8} {offset next : Nat} {d : Document}
    (h : read file offset = complete d next) :
    scanAt file offset = (offset, d) :: scanAt file next := by
  rw [scanAt_eq, h]

theorem scanAt_of_corrupt {file : List UInt8} {offset next : Nat}
    (h : read file offset = corrupt next) : scanAt file offset = scanAt file next := by
  rw [scanAt_eq, h]

theorem scanAt_of_incomplete {file : List UInt8} {offset : Nat}
    (h : read file offset = incomplete) : scanAt file offset = [] := by
  rw [scanAt_eq, h]

/-- The documents from a place on are those of the rest of the file, with their places moved. -/
theorem scanAt_drop (file : List UInt8) (base offset : Nat) :
    scanAt file (base + offset) =
      (scanAt (file.drop base) offset).map fun (place, d) => (base + place, d) := by
  induction h : (file.drop base).length - offset using Nat.strongRecOn
    generalizing offset with
  | ind left ih =>
    have hr : read file (base + offset) = (read (file.drop base) offset).shift base := by
      rw [read_eq_shift file, read_eq_shift (file.drop base), List.drop_drop]
      cases read (file.drop (base + offset)) 0 <;> simp only [shift, Nat.add_assoc]
    cases hf : read (file.drop base) offset with
    | complete d next =>
      rw [hf] at hr
      have hp := progress_of_complete hf
      simp only [headerSize] at hp
      rw [scanAt_of_complete hr, scanAt_of_complete hf, List.map_cons,
        ih _ (by omega) next rfl]
    | corrupt next =>
      rw [hf] at hr
      have hp := progress_of_corrupt hf
      simp only [headerSize] at hp
      rw [scanAt_of_corrupt hr, scanAt_of_corrupt hf, ih _ (by omega) next rfl]
    | incomplete =>
      rw [hf] at hr
      rw [scanAt_of_incomplete hr, scanAt_of_incomplete hf, List.map_nil]

/-- The documents from a place on are those of the rest of the file. -/
theorem documents_drop (file : List UInt8) (offset : Nat) :
    documents (file.drop offset) = (scanAt file offset).map (·.2) := by
  have h := scanAt_drop file offset 0
  rw [Nat.add_zero] at h
  rw [h, documents, scan_eq_scanAt, List.map_map]
  rfl

theorem documents_of_complete {file : List UInt8} {next : Nat} {d : Document}
    (h : read file 0 = complete d next) : documents file = d :: documents (file.drop next) := by
  rw [documents_drop, documents, scan_eq_scanAt, scanAt_of_complete h, List.map_cons]

theorem documents_of_corrupt {file : List UInt8} {next : Nat} (h : read file 0 = corrupt next) :
    documents file = documents (file.drop next) := by
  rw [documents_drop, documents, scan_eq_scanAt, scanAt_of_corrupt h]

theorem documents_of_incomplete {file : List UInt8} (h : read file 0 = incomplete) :
    documents file = [] := by
  rw [documents, scan_eq_scanAt, scanAt_of_incomplete h, List.map_nil]

/-! ## Passing over frames -/

/-- From one place of a file to another, reading passes over the frames of some documents, and over
any number of frames that cannot be read. -/
inductive Passes (file : List UInt8) (start : Nat) : List (Nat × Document) → Nat → Prop where
  | stay : Passes file start [] start
  | document {passed : List (Nat × Document)} {place next : Nat} {d : Document} :
    Passes file start passed place → read file place = complete d next →
      Passes file start (passed ++ [(place, d)]) next
  | damaged {passed : List (Nat × Document)} {place next : Nat} :
    Passes file start passed place → read file place = corrupt next →
      Passes file start passed next

namespace Passes

variable {file : List UInt8} {start place : Nat} {passed : List (Nat × Document)}

/-- What was passed over comes first in a scan. -/
theorem scanAt_eq (h : Passes file start passed place) :
    scanAt file start = passed ++ scanAt file place := by
  induction h with
  | stay => rfl
  | document _ hr ih =>
    rw [ih, scanAt_of_complete hr, List.append_assoc, List.singleton_append]
  | damaged _ hr ih => rw [ih, scanAt_of_corrupt hr]

/-- Bytes at the end of the file change nothing of what was passed over. -/
theorem append (h : Passes file start passed place) (more : List UInt8) :
    Passes (file ++ more) start passed place := by
  induction h with
  | stay => exact .stay
  | document _ hr ih => exact ih.document (read_append_of_complete hr more)
  | damaged _ hr ih => exact ih.damaged (read_append_of_corrupt hr more)

theorem trans (h : Passes file start passed place) {later : List (Nat × Document)} {stop : Nat}
    (h' : Passes file place later stop) : Passes file start (passed ++ later) stop := by
  induction h' with
  | stay => rwa [List.append_nil]
  | document _ hr ih => rw [← List.append_assoc]; exact ih.document hr
  | damaged _ hr ih => exact ih.damaged hr

/-- A place inside the file is left for one inside the file. -/
theorem le_length (h : Passes file start passed place) (hs : start ≤ file.length) :
    place ≤ file.length := by
  cases h with
  | stay => exact hs
  | document _ hr => exact (progress_of_complete hr).2
  | damaged _ hr => exact (progress_of_corrupt hr).2

/-- What is passed over are whole frames, one behind the other. -/
theorem stands (h : Passes file start passed place) :
    start ≤ place ∧
      (∀ p ∈ passed, start ≤ p.1 ∧ Stands file p.1 p.2 ∧ endAt file p.1 ≤ place) ∧
      passed.Pairwise fun p q => endAt file p.1 ≤ q.1 := by
  -- What was passed over before still ends in front of the next place.
  have later {passed : List (Nat × Document)} {place next : Nat} (moved : place ≤ next)
      (before : ∀ p ∈ passed, start ≤ p.1 ∧ Stands file p.1 p.2 ∧ endAt file p.1 ≤ place) :
      ∀ p ∈ passed, start ≤ p.1 ∧ Stands file p.1 p.2 ∧ endAt file p.1 ≤ next := by
    intro p hp
    obtain ⟨behind, stands, ends⟩ := before p hp
    exact ⟨behind, stands, Nat.le_trans ends moved⟩
  induction h with
  | stay => exact ⟨Nat.le_refl _, List.forall_mem_nil _, .nil⟩
  | @document passed place next d _ hr ih =>
    obtain ⟨le, before, apart⟩ := ih
    obtain ⟨here, ends⟩ := read_eq_complete_iff.mp hr
    have moved : place ≤ next := Nat.le_of_add_right_le (progress_of_complete hr).1
    refine ⟨Nat.le_trans le moved, List.forall_mem_append.mpr ⟨later moved before, ?_⟩,
      List.pairwise_append.mpr ⟨apart, List.pairwise_singleton _ _, ?_⟩⟩
    · exact List.forall_mem_singleton.mpr ⟨le, here, Nat.le_of_eq ends.symm⟩
    · intro p hp q hq
      rw [List.mem_singleton.mp hq]
      exact (before p hp).2.2
  | damaged _ hr ih =>
    obtain ⟨le, before, apart⟩ := ih
    have moved := Nat.le_of_add_right_le (progress_of_corrupt hr).1
    exact ⟨Nat.le_trans le moved, later moved before, apart⟩

/-- Frames are passed over from front to back. -/
theorem rising (h : Passes file start passed place) :
    (passed.map (·.1)).Pairwise (· < ·) ∧ ∀ n ∈ passed.map (·.1), n < place := by
  obtain ⟨-, before, apart⟩ := h.stands
  have long (n : Nat) : n < endAt file n := by
    simp only [endAt, headerSize]
    omega
  constructor
  · exact List.pairwise_map.mpr (apart.imp fun ends => Nat.lt_of_lt_of_le (long _) ends)
  · intro n hn
    obtain ⟨p, hp, rfl⟩ := List.mem_map.mp hn
    exact Nat.lt_of_lt_of_le (long p.1) (before p hp).2.2

end Passes

/-- A scan passes over all its documents, up to a place where no whole frame stands. -/
theorem exists_passes_scanAt (file : List UInt8) (start : Nat) :
    ∃ stop, Passes file start (scanAt file start) stop ∧ read file stop = incomplete := by
  induction h : file.length - start using Nat.strongRecOn generalizing start with
  | ind left ih =>
    cases hr : read file start with
    | complete d next =>
      have hp := progress_of_complete hr
      simp only [headerSize] at hp
      obtain ⟨stop, passes, ends⟩ := ih _ (by omega) next rfl
      refine ⟨stop, ?_, ends⟩
      rw [scanAt_of_complete hr]
      exact (Passes.stay.document hr).trans passes
    | corrupt next =>
      have hp := progress_of_corrupt hr
      simp only [headerSize] at hp
      obtain ⟨stop, passes, ends⟩ := ih _ (by omega) next rfl
      refine ⟨stop, ?_, ends⟩
      rw [scanAt_of_corrupt hr]
      exact (Passes.stay.damaged hr).trans passes
    | incomplete =>
      refine ⟨start, ?_, hr⟩
      rw [scanAt_of_incomplete hr]
      exact .stay

/-- Where the frames start whose documents are found. -/
def starts (file : List UInt8) : List Nat := (scan file).map (·.1)

theorem rising_starts (file : List UInt8) : (starts file).Pairwise (· < ·) := by
  obtain ⟨stop, passes, -⟩ := exists_passes_scanAt file 0
  exact passes.rising.1

/-- A longer file holds the documents of the shorter one, and then those that the new bytes
complete. -/
theorem documents_prefix_append (file more : List UInt8) :
    documents file <+: documents (file ++ more) := by
  obtain ⟨stop, passes, -⟩ := exists_passes_scanAt file 0
  rw [documents, documents, scan_eq_scanAt, scan_eq_scanAt, (passes.append more).scanAt_eq,
    List.map_append]
  exact List.prefix_append _ _

end Frame

end TraceJournal
