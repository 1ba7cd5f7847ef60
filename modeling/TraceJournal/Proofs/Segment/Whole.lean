import Mathlib.Data.List.Induction
import TraceJournal.Proofs.Segment.Accepted
import TraceJournal.Proofs.Segment.Sole

/-!
# Cutting files of whole frames

A file of whole frames whose documents need not be readable: every frame is passed over, whether its
document can be read back or not. A store alone with such a file cuts it where one of the frames
starts, so that whole frames are left; if the document that led to the cut can be read back and its
own frame is not too long for what a cut leaves, it stays.
-/

namespace TraceJournal

namespace Frame

variable {docs : List Document}

/-- Behind the frames of the first documents of a file there stands a frame that can be passed over,
if there is one more document. -/
theorem next?_read_encodeAll (front : List Document) {behind : List Document}
    (fits : ∀ d ∈ behind, d.Fits) :
    next? (read (encodeAll (front ++ behind)) (total front)) =
      behind.head?.map fun d => total (front ++ [d]) := by
  have here : read (encodeAll (front ++ behind)) (total front) =
      (read (encodeAll behind) 0).shift (total front) := by
    rw [read_eq_shift, encodeAll_append, List.drop_left' (length_encodeAll front)]
  cases behind with
  | nil =>
    rw [here]
    rfl
  | cons d rest =>
    have place : total (front ++ [d]) = total front + (encode d).length := by
      rw [total_append, total_cons, total_nil, Nat.add_zero]
    have stands := read_encode_append (fits d List.mem_cons_self) (encodeAll rest)
    rw [here, encodeAll_cons, stands, List.head?_cons, Option.map_some, place]
    cases d.reread? <;> rfl

/-- Reading passes over the frames of the first documents. -/
theorem exists_passes_front {front behind : List Document}
    (fits : ∀ d ∈ front ++ behind, d.Fits) :
    ∃ passed, Passes (encodeAll (front ++ behind)) 0 passed (total front) := by
  induction front using List.reverseRecOn generalizing behind with
  | nil => exact ⟨[], .stay⟩
  | append_singleton front d ih =>
    rw [List.append_assoc, List.singleton_append] at fits ⊢
    obtain ⟨passed, passes⟩ := ih fits
    have next := next?_read_encodeAll front fun e he => fits e (List.mem_append_right front he)
    rw [List.head?_cons, Option.map_some] at next
    cases stands : read (encodeAll (front ++ d :: behind)) (total front) with
    | complete e place =>
      rw [stands] at next
      cases next
      exact ⟨_, passes.document stands⟩
    | corrupt place =>
      rw [stands] at next
      cases next
      exact ⟨_, passes.damaged stands⟩
    | incomplete =>
      rw [stands] at next
      cases next

namespace Passes

variable {file : List UInt8} {start place : Nat} {passed : List (Nat × Document)}

/-- In a file of whole frames, passing over frames leads to where those of the first documents
end. -/
theorem exists_front (fits : ∀ d ∈ docs, d.Fits) (h : Passes (encodeAll docs) 0 passed place) :
    ∃ front behind, docs = front ++ behind ∧ place = total front := by
  -- One more frame is passed over.
  have step {place next : Nat} (reached : ∃ front behind, docs = front ++ behind ∧
      place = total front) (stands : next? (read (encodeAll docs) place) = some next) :
      ∃ front behind, docs = front ++ behind ∧ next = total front := by
    obtain ⟨front, behind, split, rfl⟩ := reached
    have later : ∀ d ∈ behind, d.Fits :=
      fun d hd => fits d (split ▸ List.mem_append_right front hd)
    have there := next?_read_encodeAll front later
    rw [← split, stands] at there
    cases behind with
    | nil => cases there
    | cons d rest =>
      cases there
      exact ⟨front ++ [d], rest, by rw [split, List.append_assoc, List.singleton_append], rfl⟩
  induction h with
  | stay => exact ⟨[], docs, rfl, rfl⟩
  | document _ hr ih => exact step ih (by rw [hr]; rfl)
  | damaged _ hr ih => exact step ih (by rw [hr]; rfl)

/-- At the place of a document that was passed over stands its frame. -/
theorem exists_read_of_mem (h : Passes file start passed place) {p : Nat × Document}
    (hp : p ∈ passed) : ∃ next, read file p.1 = complete p.2 next := by
  exact ⟨_, read_eq_complete_iff.mpr ⟨(h.stands.2.1 p hp).2.1, rfl⟩⟩

end Passes

/-- Where the document of a scan stands, the file does not end. -/
theorem lt_of_mem_scan {file : List UInt8} {n : Nat} (h : n ∈ (scan file).map (·.1)) :
    n < file.length := by
  obtain ⟨p, hp, rfl⟩ := List.mem_map.mp h
  obtain ⟨stop, passes, -⟩ := exists_passes_scanAt file 0
  obtain ⟨next, hr⟩ := passes.exists_read_of_mem hp
  have progress := progress_of_complete hr
  simp only [headerSize] at progress
  omega

/-- What a document becomes is found where its frame stands. -/
theorem mem_scan_encodeAll {front behind : List Document} {d d' : Document}
    (fits : ∀ e ∈ front ++ d :: behind, e.Fits) (becomes : d.reread? = some d') :
    (total front, d') ∈ scan (encodeAll (front ++ d :: behind)) := by
  obtain ⟨passed, passes⟩ := exists_passes_front fits
  have stands := read_encode_append (fits d (List.mem_append_right front List.mem_cons_self))
    (encodeAll behind)
  rw [becomes, Option.elim_some] at stands
  have here : read (encodeAll (front ++ d :: behind)) (total front) =
      complete d' (total front + (encode d).length) := by
    rw [read_eq_shift, encodeAll_append, List.drop_left' (length_encodeAll front), encodeAll_cons,
      stands, shift]
  rw [scan_eq_scanAt, passes.scanAt_eq, scanAt_of_complete here]
  exact List.mem_append_right _ List.mem_cons_self

end Frame

namespace Segment

/-- If what stands from some frame on is short enough, a file is cut where a frame starts. -/
theorem cutPlace?_mem {size kept place n : Nat} {offsets : List Nat}
    (h : cutPlace? size kept offsets = some place) (hn : n ∈ offsets) (short : size - n ≤ kept) :
    place ∈ offsets := by
  induction offsets with
  | nil => cases hn
  | cons m rest ih =>
    rw [cutPlace?] at h
    split at h
    · cases h
    · split at h
      · cases h
        exact List.mem_cons_self
      · next long =>
        rcases List.mem_cons.mp hn with rfl | later
        · exact absurd short long
        · exact List.mem_cons_of_mem m (ih h later)

/-- The document would be found in the file after its insertion: it becomes something when it is
read back, and there is room for its frame, or its frame is not longer than what a cut leaves. -/
def KeepsLatest (s : Segment) (d : Document) : Prop :=
  d.reread?.isSome ∧ (s.Overflows d → (Frame.encode d).length ≤ s.keptSize)

namespace Sole

variable {s : Segment} {disk : Disk} {docs : List Document}

/-- A file of whole frames is one after the insertion of a document, too: it holds the last of the
documents, the new one included. -/
theorem exists_insert_suffix (h : s.Sole disk) (bytes : s.bytes disk = Frame.encodeAll docs)
    (fits : ∀ d ∈ docs, d.Fits) {d : Document} (accepted : (s.insert d disk).1 = .ok ()) :
    ∃ left, left <:+ docs ++ [d] ∧
      (s.insert d disk).2.1.bytes (s.insert d disk).2.2 = Frame.encodeAll left ∧
      (∀ e ∈ left, e.Fits) ∧ (s.KeepsLatest d → left ≠ []) := by
  have inserted := h.inPlace.inserted d
  have grown : s.bytes disk ++ Frame.encode d = Frame.encodeAll (docs ++ [d]) := by
    rw [bytes, Frame.encodeAll_append, Frame.encodeAll_cons, Frame.encodeAll_nil, List.append_nil]
  have all (fit : d.Fits) : ∀ e ∈ docs ++ [d], e.Fits := by
    intro e he
    rcases List.mem_append.mp he with old | new
    · exact fits e old
    · rw [List.mem_singleton.mp new]
      exact fit
  obtain ⟨place, found, there⟩ := h.exists_cutPlace d
  generalize s.insert d disk = answer at inserted accepted ⊢
  cases inserted with
  | refused => cases accepted
  | stuck => cases accepted
  | appended fit =>
    refine ⟨docs ++ [d], List.suffix_rfl, ?_, all fit, ?_⟩
    · rw [h.inPlace.bytes_append, grown]
    · exact fun _ => List.append_ne_nil_of_right_ne_nil _ (List.cons_ne_nil _ _)
  | cut fit overflows cut =>
    rw [found] at cut
    cases cut
    rw [grown] at found there
    obtain ⟨front, behind, split, rfl⟩ :
        ∃ front behind, docs ++ [d] = front ++ behind ∧ place = Frame.total front := by
      rcases there with ⟨passed, passes⟩ | rfl
      · exact passes.exists_front (all fit)
      · exact ⟨docs ++ [d], [], (List.append_nil _).symm, Frame.length_encodeAll _⟩
    refine ⟨behind, ⟨front, split.symm⟩, ?_, ?_, ?_⟩
    · rw [(h.inPlace.append _).bytes_withLeft, grown, split, Frame.encodeAll_append,
        List.drop_left' (Frame.length_encodeAll front)]
    · intro e he
      exact all fit e (split ▸ List.mem_append_right front he)
    · -- The cut is made where a frame starts, so something stands behind it.
      rintro keeps rfl
      obtain ⟨d', becomes⟩ := Option.isSome_iff_exists.mp keeps.1
      have last : (Frame.total docs, d') ∈ Frame.scan (Frame.encodeAll (docs ++ [d])) :=
        Frame.mem_scan_encodeAll (all fit) becomes
      have size : s.size + (Frame.encode d).length - Frame.total docs ≤ s.keptSize := by
        rw [h.size_eq, bytes, Frame.length_encodeAll, Nat.add_sub_cancel_left]
        exact keeps.2 overflows
      have inside := Frame.lt_of_mem_scan
        (cutPlace?_mem found (List.mem_map_of_mem last) size)
      rw [Frame.length_encodeAll, split, List.append_nil] at inside
      exact Nat.lt_irrefl _ inside

end Sole

end Segment

end TraceJournal
