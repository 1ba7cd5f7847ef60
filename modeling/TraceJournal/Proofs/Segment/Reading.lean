import TraceJournal.Proofs.Segment.Scan
import TraceJournal.Store.Segment.Basic

/-!
# Reading through a window

As long as a window shows the file as it is, reading through it is reading the file itself. Bytes
at the end of the file leave the window as it is, so a cursor over a file that only grows finds
what a scan of the file finds.
-/

namespace TraceJournal

namespace Window

/-- The window shows the file as it is. -/
def Shows (w : Window) (file : List UInt8) : Prop := w.filled <+: file.drop w.start

namespace Shows

variable {w : Window} {file : List UInt8}

theorem append (h : w.Shows file) (more : List UInt8) : w.Shows (file ++ more) := by
  rw [Shows, List.drop_append]
  exact h.trans (List.prefix_append _ _)

theorem seek (h : w.Shows file) (position : Nat) :
    (w.seek position).Shows file ∧ (w.seek position).position = position := by
  unfold Window.seek
  split
  · exact ⟨h, rfl⟩
  · exact ⟨List.nil_prefix, rfl⟩

/-- What is still to be read in the window, and then in the file. -/
theorem ahead_append (h : w.Shows file) :
    w.ahead ++ file.drop (w.start + w.filled.length) = file.drop w.position := by
  obtain ⟨rest, hr⟩ := h
  have hs := w.start_le
  have he := w.le_end
  have behind : file.drop (w.start + w.filled.length) = rest := by
    rw [← List.drop_drop, ← hr, List.drop_left]
  have here : file.drop w.position = (file.drop w.start).drop (w.position - w.start) := by
    rw [List.drop_drop, Nat.add_sub_cancel' hs]
  rw [behind, here, ← hr, List.drop_append_of_le_length (by omega)]
  rfl

/-- Bytes that the file has are read as they stand in the file. -/
theorem read (h : w.Shows file) (count : Nat) (within : w.position + count ≤ file.length) :
    ∃ w' : Window, w.read file count = (some ((file.drop w.position).take count), w') ∧
      w'.Shows file ∧ w'.position = w.position + count := by
  have hs := w.start_le
  have he := w.le_end
  have split := h.ahead_append
  have ahead : w.ahead.length = w.start + w.filled.length - w.position := by
    simp only [Window.ahead, List.length_drop]
    omega
  unfold Window.read
  by_cases hc : count ≤ w.ahead.length
  · rw [dif_pos hc, ← split, List.take_append_of_le_length hc]
    exact ⟨_, rfl, h, rfl⟩
  · rw [dif_neg hc]
    have whole : ¬(file.drop (w.start + w.filled.length)).length < count - w.ahead.length := by
      have hl := congrArg List.length split
      simp only [List.length_append, List.length_drop] at hl ⊢
      omega
    have taken : (file.drop w.position).take count =
        w.ahead ++ (file.drop (w.start + w.filled.length)).take (count - w.ahead.length) := by
      rw [← split, List.take_append, List.take_of_length_le (by omega)]
    simp only [dif_neg whole, taken]
    split
    · exact ⟨_, rfl, List.take_prefix _ _, by simp only; omega⟩
    · exact ⟨_, rfl, List.nil_prefix, by simp only [atPlace]; omega⟩

/-- What stands at a place is the same through the window as in the file. -/
theorem frame (h : w.Shows file) (offset : Nat) :
    ∃ w' : Window, w.frame file offset = (Frame.read file offset, w') ∧ w'.Shows file := by
  unfold Window.frame
  simp only [Frame.read, List.length_drop]
  have size : Frame.headerSize = 8 := rfl
  by_cases hh : file.length < offset + Frame.headerSize
  · rw [if_pos hh, if_pos (by omega)]
    exact ⟨w, rfl, h⟩
  · rw [if_neg hh, if_neg (by omega)]
    obtain ⟨shows, place⟩ := h.seek offset
    obtain ⟨w₁, hr, shows₁, place₁⟩ := shows.read Frame.headerSize (by omega)
    rw [hr]
    have length : Frame.payloadLength ((file.drop (w.seek offset).position).take Frame.headerSize)
        = Frame.payloadLength (file.drop offset) := by
      rw [place, Frame.payloadLength, Bytes.toNumber_take (by decide), Frame.payloadLength]
    have checksum :
        Frame.payloadChecksum ((file.drop (w.seek offset).position).take Frame.headerSize) =
          Frame.payloadChecksum (file.drop offset) := by
      rw [place, Frame.payloadChecksum, List.drop_take, Bytes.toNumber_take (by decide),
        Frame.payloadChecksum]
    simp only [length, checksum]
    split
    · exact ⟨w₁, rfl, shows₁⟩
    · by_cases hp : file.length < offset + Frame.headerSize +
        Frame.payloadLength (file.drop offset)
      · rw [if_pos hp, if_pos (by omega)]
        exact ⟨w₁, rfl, shows₁⟩
      · rw [if_neg hp, if_neg (by omega)]
        obtain ⟨w₂, hr₂, shows₂, -⟩ :=
          shows₁.read (Frame.payloadLength (file.drop offset)) (by omega)
        rw [hr₂, place₁, place]
        refine ⟨w₂, ?_, shows₂⟩
        rw [List.drop_drop]

end Shows

end Window

namespace SegmentCursor

open TraceJournal.Frame

/-- A cursor whose window shows the file passes over documents before its time until it meets one
that is not, or until no whole frame is left. -/
theorem readOn_passes {file : List UInt8} (rounds : Nat) (c : SegmentCursor)
    (shows : c.window.Shows file) (enough : file.length - c.offset < rounds) :
    ∃ w next skipped, w.Shows file ∧ (∀ p ∈ skipped, ¬c.source ≤ p.2.time) ∧
      ((c.readOn file rounds = (none, { c with window := w, offset := next }) ∧
          Passes file c.offset skipped next ∧ read file next = incomplete) ∨
        ∃ place d, c.readOn file rounds = (some d, { c with window := w, offset := next }) ∧
          Passes file c.offset (skipped ++ [(place, d)]) next ∧ c.source ≤ d.time) := by
  induction rounds generalizing c with
  | zero => omega
  | succ rounds ih =>
    obtain ⟨w, hw, shows'⟩ := shows.frame c.offset
    unfold readOn
    cases hr : read file c.offset with
    | complete d next =>
      rw [hr] at hw
      have hp := progress_of_complete hr
      simp only [headerSize] at hp
      simp only [hw]
      by_cases ht : c.source ≤ d.time
      · rw [if_pos ht]
        exact ⟨w, next, [], shows', by simp, .inr ⟨c.offset, d, rfl, Passes.stay.document hr, ht⟩⟩
      · rw [if_neg ht]
        obtain ⟨w', next', skipped, shows'', before, outcome⟩ :=
          ih { c with window := w, offset := next } shows' (by simp only; omega)
        refine ⟨w', next', (c.offset, d) :: skipped, shows'', ?_, ?_⟩
        · intro p hm
          rcases List.mem_cons.mp hm with rfl | hm
          · exact ht
          · exact before p hm
        · rcases outcome with ⟨he, passes, ends⟩ | ⟨place, d', he, passes, matching⟩
          · exact .inl ⟨he, (Passes.stay.document hr).trans passes, ends⟩
          · exact .inr ⟨place, d', he, (Passes.stay.document hr).trans passes, matching⟩
    | corrupt next =>
      rw [hr] at hw
      have hp := progress_of_corrupt hr
      simp only [headerSize] at hp
      simp only [hw]
      obtain ⟨w', next', skipped, shows'', before, outcome⟩ :=
        ih { c with window := w, offset := next } shows' (by simp only; omega)
      refine ⟨w', next', skipped, shows'', before, ?_⟩
      rcases outcome with ⟨he, passes, ends⟩ | ⟨place, d', he, passes, matching⟩
      · exact .inl ⟨he, (Passes.stay.damaged hr).trans passes, ends⟩
      · exact .inr ⟨place, d', he, (Passes.stay.damaged hr).trans passes, matching⟩
    | incomplete =>
      rw [hr] at hw
      simp only [hw]
      exact ⟨w, c.offset, [], shows', by simp, .inl ⟨rfl, .stay, hr⟩⟩

variable {c : SegmentCursor} {disk : Disk}

/-- The store of the cursor has not cut the file since, and the cursor's place lies in it. -/
def Valid (c : SegmentCursor) (disk : Disk) : Prop :=
  disk.cutsOf c.number = c.opened ∧ c.offset ≤ (disk.volume.bytes c.file).length

theorem tryNext_of_valid (h : c.Valid disk) :
    c.tryNext disk =
      (.ok (c.readOn (disk.volume.bytes c.file) ((disk.volume.bytes c.file).length + 1)).1,
        (c.readOn (disk.volume.bytes c.file) ((disk.volume.bytes c.file).length + 1)).2) := by
  obtain ⟨uncut, within⟩ := h
  have usable : ¬(disk.cutsOf c.number ≠ c.opened ∨
      (disk.volume.bytes c.file).length < c.offset) := by
    simp [uncut, within]
  simp only [tryNext, if_neg usable]

theorem tryNext_of_not_valid (h : ¬c.Valid disk) :
    c.tryNext disk = (.error (.cursorInvalidated c.offset), c) := by
  have invalid : disk.cutsOf c.number ≠ c.opened ∨
      (disk.volume.bytes c.file).length < c.offset := by
    simp only [Valid] at h
    omega
  simp only [tryNext, if_pos invalid]

end SegmentCursor

end TraceJournal
