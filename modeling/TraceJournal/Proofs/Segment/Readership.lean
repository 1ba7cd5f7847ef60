import TraceJournal.Proofs.Segment.Eviction
import TraceJournal.Proofs.Segment.Insertion
import TraceJournal.Proofs.Store.Cursor

/-!
# The readers of one file

One store on its file, and any number of cursors that were opened through it at any time. Until the
file is cut, a cursor answers the documents from its time on, from the oldest one that was stored
when it was opened, each once and in the order of insertion, and nothing exactly when none is left.
After a cut it only fails, at the place where it stood.

What is kept by every action: a cursor stands where the frames of the first documents end that there
were for it, and has answered exactly those of them that are not before its time.
-/

namespace TraceJournal

namespace Frame

variable {docs : List Document}

/-- What stands behind the frames of the first documents of a file. -/
theorem read_encodeAll_append {front behind : List Document}
    (readable : ∀ d ∈ front ++ behind, d.ReadsBack ∧ d.Fits) :
    read (encodeAll (front ++ behind)) (total front) =
      behind.head?.elim incomplete fun d => complete d (total front + (encode d).length) := by
  rw [read_eq_shift, encodeAll_append, List.drop_left' (length_encodeAll front)]
  cases behind with
  | nil => rfl
  | cons d rest =>
    obtain ⟨back, fits⟩ := readable d (List.mem_append_right front List.mem_cons_self)
    rw [encodeAll_cons, read_encode back fits]
    rfl

/-- In a file of whole frames, passing over documents leads to where their frames end. -/
theorem Passes.place_eq (readable : ∀ d ∈ docs, d.ReadsBack ∧ d.Fits)
    {passed : List (Nat × Document)} {place : Nat}
    (h : Passes (encodeAll docs) 0 passed place) : place = total (passed.map (·.2)) := by
  -- What stands at a place that is where the frames of the passed documents end.
  have here {passed : List (Nat × Document)} {place : Nat}
      (h : Passes (encodeAll docs) 0 passed place) (stands : place = total (passed.map (·.2))) :
      ∃ next? : Option Document, read (encodeAll docs) place =
        next?.elim incomplete fun d => complete d (place + (encode d).length) := by
    obtain ⟨behind, split⟩ : ∃ behind, docs = passed.map (·.2) ++ behind := by
      have split := congrArg (List.map (·.2)) h.scanAt_eq
      rw [← scan_eq_scanAt, scan_encodeAll readable, map_snd_places, List.map_append] at split
      exact ⟨_, split⟩
    have stood := read_encodeAll_append (split ▸ readable)
    rw [← split, ← stands] at stood
    exact ⟨_, stood⟩
  induction h with
  | stay => rfl
  | @document passed place next d before hr ih =>
    obtain ⟨next?, stands⟩ := here before ih
    rw [hr] at stands
    cases next? with
    | none => cases stands
    | some e =>
      obtain ⟨rfl, rfl⟩ := Frame.complete.inj stands
      rw [List.map_append, total_append, ← ih]
      simp only [List.map_cons, List.map_nil, total_cons, total_nil, Nat.add_zero]
  | @damaged passed place next before hr ih =>
    obtain ⟨next?, stands⟩ := here before ih
    rw [hr] at stands
    cases next? with
    | none => cases stands
    | some e => cases stands

end Frame

/-! ## Readings -/

/-- A cursor, with the documents that there were for it and those that it has answered. -/
structure Reading where
  cursor : SegmentCursor
  /-- The time from which on it was opened. -/
  source : Instant
  /-- The documents that were stored when it was opened, and then those that were inserted later, as
  long as the file was not cut. -/
  offered : List Document
  /-- All documents that it has answered. -/
  found : List Document
  /-- The file was cut since it was opened. -/
  cut : Bool

namespace Reading

/-- The documents that the cursor is to answer. -/
def wanted (r : Reading) : List Document := r.offered.filter fun d => r.source ≤ d.time

/-- The cursor after a document was inserted. -/
def offer (d : Document) (cut : Bool) (r : Reading) : Reading :=
  if r.cut then r else if cut then { r with cut } else { r with offered := r.offered ++ [d] }

/-- The cursor after it was asked. -/
def ask (disk : Disk) (r : Reading) : Reading :=
  let (answer, cursor) := r.cursor.tryNext disk
  match answer with
  | .ok (some d) => { r with cursor, found := r.found ++ [d] }
  | _ => { r with cursor }

/-- A cursor that does not fail has answered what it answers, if that is a document. -/
theorem ask_of_ok {r : Reading} {disk : Disk} {answer : Option Document} {c : SegmentCursor}
    (asked : r.cursor.tryNext disk = (.ok answer, c)) :
    r.ask disk = { r with cursor := c, found := r.found ++ answer.toList } := by
  cases answer with
  | none => simp only [ask, asked, Option.toList_none, List.append_nil]
  | some d => simp only [ask, asked, Option.toList_some]

/-- What a cursor does that has answered some documents: it stands behind the frames of the first
documents that there were for it; as long as the file is not cut, its next answer is the next
document that it is to answer, and nothing if there is none; after a cut it fails where it stands,
and stays there. -/
structure Exact (r : Reading) (disk : Disk) : Prop where
  place : ∃ passed, passed <+: r.offered ∧ r.cursor.offset = Frame.total passed ∧
    r.found = passed.filter fun d => r.source ≤ d.time
  found : r.found = r.wanted.take r.found.length
  next : r.cut = false → (r.cursor.tryNext disk).1 = .ok r.wanted[r.found.length]?
  lost : r.cut = true →
    r.cursor.tryNext disk = (.error (.cursorInvalidated r.cursor.offset), r.cursor)

end Reading

/-- A store with all cursors that were opened through it. -/
structure Readership where
  store : Segment
  disk : Disk
  readings : List Reading

namespace Readership

/-- What happens to a store and its cursors. -/
inductive Action where
  /-- A document is inserted. -/
  | insert (d : Document)
  /-- A cursor is opened. -/
  | tail (source : Instant)
  /-- The cursor with this number is asked. -/
  | ask (number : Nat)

/-- The store and its cursors after an action. -/
def next (w : Readership) : Action → Readership
  | .insert d =>
    let (result, store, disk) := w.store.insert d w.disk
    let cut := decide (w.store.Overflows d)
    ⟨store, disk, if result.isOk then w.readings.map (Reading.offer d cut) else w.readings⟩
  | .tail source =>
    match w.store.tailFrom source w.disk, w.store.documents w.disk with
    | .ok cursor, .ok docs =>
      { w with readings := w.readings ++ [⟨cursor, source, docs, [], false⟩] }
    | _, _ => w
  | .ask number => { w with readings := w.readings.modify number (Reading.ask w.disk) }

/-- The store and its cursors after some actions. -/
def run (w : Readership) (actions : List Action) : Readership := actions.foldl next w

end Readership

/-! ## What every action keeps -/

/-- The cursor stands where the frames of the documents `passed` end, and has answered those of them
that are not before its time; it follows the store until the file is cut, and is lost then. -/
structure Reading.Stands (r : Reading) (s : Segment) (disk : Disk) (docs passed : List Document) :
    Prop where
  source_eq : r.cursor.source = r.source
  number_eq : r.cursor.number = s.number
  passed_prefix : passed <+: r.offered
  offset_eq : r.cursor.offset = Frame.total passed
  found_eq : r.found = passed.filter fun d => r.source ≤ d.time
  follows : r.cut = false → r.offered = docs ∧ r.cursor.Follows s disk passed
  lost : r.cut = true → r.cursor.Lost disk

namespace SegmentCursor

variable {c : SegmentCursor} {s : Segment} {disk : Disk} {docs seen : List Document}

/-- In a file of whole frames, a cursor stands where the frames end of what it has seen. -/
theorem Follows.offset_eq (h : c.Follows s disk seen) (held : s.Holds disk docs) :
    c.offset = Frame.total seen := by
  obtain ⟨passed, passes, rfl⟩ := h.passes
  have file : disk.volume.bytes c.file = Frame.encodeAll docs := by
    have same := h.file_path.symm.trans held.inPlace.file_path
    rw [Except.ok.inj same]
    exact held.bytes_eq
  rw [file] at passes
  exact passes.place_eq held.readable

end SegmentCursor

/-- What asking a cursor comes to that follows its store. -/
theorem SegmentCursor.Follows.asked {c : SegmentCursor} {s : Segment} {disk : Disk}
    {seen : List Document} (h : c.Follows s disk seen) :
    (∃ skipped c', c.tryNext disk = (.ok none, c') ∧ c'.Follows s disk (seen ++ skipped) ∧
      (∀ d ∈ skipped, ¬c.source ≤ d.time) ∧ s.documents disk = .ok (seen ++ skipped)) ∨
    (∃ skipped d c', c.tryNext disk = (.ok (some d), c') ∧
      c'.Follows s disk (seen ++ skipped ++ [d]) ∧ (∀ d ∈ skipped, ¬c.source ≤ d.time) ∧
      c.source ≤ d.time) := by
  have follows : (Cursor.segment c).Follows (.segment s disk) seen := h
  have asked := follows.asked
  simp only [Cursor.tryNext, Cursor.source] at asked
  generalize c.tryNext disk = result at asked ⊢
  obtain ⟨answer, c'⟩ := result
  cases asked with
  | nothing _ after before all => exact .inl ⟨_, c', rfl, after, before, all⟩
  | found _ after before matching => exact .inr ⟨_, _, c', rfl, after, before, matching⟩

/-- It answers the next document that matches, of those that the store has, and has seen that
then. -/
theorem SegmentCursor.Follows.answers {c : SegmentCursor} {s : Segment} {disk : Disk}
    {seen docs : List Document} {source : Instant} (h : c.Follows s disk seen)
    (all : s.documents disk = .ok docs) (from_source : c.source = source) :
    let next? := (docs.filter fun d => source ≤ d.time)[
      (seen.filter fun d => source ≤ d.time).length]?
    ∃ more c', c.tryNext disk = (.ok next?, c') ∧ c'.Follows s disk (seen ++ more) ∧
      (more.filter fun d => source ≤ d.time) = next?.toList := by
  subst from_source
  rcases h.asked with ⟨skipped, c', answer, after, before, ends⟩ |
    ⟨skipped, d, c', answer, after, before, matching⟩
  · have nothing := Document.filter_eq_nil_of_before before
    have documents := Except.ok.inj (all.symm.trans ends)
    have next : (docs.filter fun d => c.source ≤ d.time)[
        (seen.filter fun d => c.source ≤ d.time).length]? = none := by
      rw [documents, List.filter_append, nothing, List.append_nil,
        List.getElem?_eq_none (Nat.le_refl _)]
    rw [next]
    exact ⟨skipped, c', answer, after, nothing⟩
  · have one : ((skipped ++ [d]).filter fun d => c.source ≤ d.time) = [d] := by
      rw [List.filter_append, Document.filter_eq_nil_of_before before]
      simp [matching]
    rw [List.append_assoc] at after
    have documents := Except.ok.inj (all.symm.trans after.documents)
    have next : (docs.filter fun d => c.source ≤ d.time)[
        (seen.filter fun d => c.source ≤ d.time).length]? = some d := by
      rw [documents, List.filter_append, List.filter_append, one, List.append_assoc,
        List.getElem?_append_right (Nat.le_refl _), Nat.sub_self]
      rfl
    rw [next]
    exact ⟨skipped ++ [d], c', answer, after, one⟩

namespace Reading.Stands

variable {r : Reading} {s : Segment} {disk : Disk} {docs passed : List Document}

theorem found_take (h : r.Stands s disk docs passed) : r.found = r.wanted.take r.found.length := by
  obtain ⟨ahead, split⟩ := h.passed_prefix
  rw [wanted, ← split, List.filter_append, ← h.found_eq, List.take_left]

/-- A cursor that stands further ahead, on a file that was not cut. -/
private theorem advance (h : r.Stands s disk docs passed) (uncut : r.cut = false)
    {skipped found : List Document} {c : SegmentCursor}
    (moved : ∃ w next, c = { r.cursor with window := w, offset := next })
    (after : c.Follows s disk (passed ++ skipped)) (held : s.Holds disk docs)
    (new : (skipped.filter fun d => r.source ≤ d.time) = found) :
    Stands { r with cursor := c, found := r.found ++ found } s disk docs (passed ++ skipped) := by
  obtain ⟨w, next, same⟩ := moved
  obtain ⟨offered, -⟩ := h.follows uncut
  obtain ⟨ahead, documents⟩ : ∃ ahead, docs = passed ++ skipped ++ ahead :=
    ⟨_, Except.ok.inj (held.documents_eq.symm.trans after.documents)⟩
  constructor
  · rw [same]
    exact h.source_eq
  · rw [same]
    exact h.number_eq
  · simp only [offered, documents]
    exact List.prefix_append _ _
  · exact after.offset_eq held
  · rw [List.filter_append, new, h.found_eq]
  · exact fun _ => ⟨offered, after⟩
  · intro cut
    simp only [uncut, Bool.false_eq_true] at cut

/-- Asking a cursor on a file that was not cut. -/
theorem ask_uncut (h : r.Stands s disk docs passed) (held : s.Holds disk docs)
    (uncut : r.cut = false) :
    (r.cursor.tryNext disk).1 = .ok r.wanted[r.found.length]? ∧
      ∃ passed', (r.ask disk).Stands s disk docs passed' := by
  obtain ⟨offered, follows⟩ := h.follows uncut
  have moved := r.cursor.exists_tryNext disk
  obtain ⟨more, c, answer, after, new⟩ := follows.answers held.documents_eq h.source_eq
  rw [← h.found_eq, ← offered] at answer new
  rw [answer] at moved
  rw [ask_of_ok answer, answer]
  exact ⟨rfl, _, h.advance uncut moved after held new⟩

/-- What holds of an asked cursor, whether the file was cut or not. -/
theorem exact (h : r.Stands s disk docs passed) (held : s.Holds disk docs) : r.Exact disk where
  place := ⟨passed, h.passed_prefix, h.offset_eq, h.found_eq⟩
  found := h.found_take
  next uncut := (h.ask_uncut held uncut).1
  lost cut := (h.lost cut).tryNext_eq

/-- Asking a cursor. -/
theorem ask (h : r.Stands s disk docs passed) (held : s.Holds disk docs) :
    ∃ passed', (r.ask disk).Stands s disk docs passed' := by
  cases cut : r.cut with
  | true =>
    have same : r.ask disk = r := by
      simp only [Reading.ask, (h.lost cut).tryNext_eq]
    rw [same]
    exact ⟨passed, h⟩
  | false => exact (h.ask_uncut held cut).2

/-- Inserting a document that is accepted. -/
theorem offer (h : r.Stands s disk docs passed) (held : s.Holds disk docs)
    (known : s.number < disk.cuts.length) {d : Document}
    (accepted : (s.insert d disk).1 = .ok ()) {docs' : List Document}
    (grown : ¬s.Overflows d → docs' = docs ++ [d]) :
    (r.offer d (s.Overflows d)).Stands (s.insert d disk).2.1 (s.insert d disk).2.2 docs'
      passed := by
  have inserted := held.inPlace.inserted d
  have number := h.number_eq.trans inserted.number_eq.symm
  cases cut : r.cut with
  | true =>
    rw [Reading.offer, if_pos cut]
    refine ⟨h.source_eq, number, h.passed_prefix, h.offset_eq, h.found_eq, ?_, ?_⟩
    · intro uncut
      rw [cut] at uncut
      cases uncut
    · intro
      exact (h.lost cut).insert held.inPlace d
  | false =>
    obtain ⟨offered, follows⟩ := h.follows cut
    rw [Reading.offer, if_neg (by simp [cut])]
    by_cases overflows : s.Overflows d
    · rw [if_pos (decide_eq_true overflows)]
      refine ⟨h.source_eq, number, h.passed_prefix, h.offset_eq, h.found_eq, ?_, ?_⟩
      · intro uncut
        exact absurd overflows (of_decide_eq_false uncut)
      intro
      show r.cursor.opened < _
      rw [h.number_eq, inserted.cutsOf_eq accepted overflows known, ← follows.uncut, h.number_eq]
      exact Nat.lt_succ_self _
    · rw [if_neg (by simpa using overflows)]
      refine ⟨h.source_eq, number, h.passed_prefix.trans (List.prefix_append _ _), h.offset_eq,
        h.found_eq, ?_, ?_⟩
      · intro
        refine ⟨?_, follows.insert (.inr (Nat.le_of_not_lt overflows))⟩
        rw [grown overflows, ← offered]
      · intro cut'
        simp only [cut, Bool.false_eq_true] at cut'

/-- A cursor that was just opened. -/
theorem opened (held : s.Holds disk docs) {source : Instant} {c : SegmentCursor}
    (tail : s.tailFrom source disk = .ok c) :
    Stands ⟨c, source, docs, [], false⟩ s disk docs [] := by
  obtain ⟨follows, from_source⟩ := SegmentCursor.follows_tailFrom tail
  rw [held.inPlace.tailFrom_eq] at tail
  cases tail
  exact ⟨rfl, rfl, List.nil_prefix, rfl, rfl, fun _ => ⟨rfl, follows⟩, nofun⟩

end Reading.Stands

namespace Readership

/-- The store holds some documents, and every cursor stands somewhere among those that there were
for it. -/
structure Inv (w : Readership) (docs : List Document) : Prop where
  holds : w.store.Holds w.disk docs
  known : w.store.number < w.disk.cuts.length
  stands : ∀ r ∈ w.readings, ∃ passed, r.Stands w.store w.disk docs passed

namespace Inv

variable {w : Readership} {docs : List Document}

/-- A document that fits into a frame is accepted, and all cursors learn of it. -/
theorem insert_of_fits (h : w.Inv docs) {d : Document} (back : d.ReadsBack) (fits : d.Fits) :
    (w.next (.insert d)).readings = w.readings.map (Reading.offer d (w.store.Overflows d)) ∧
      (w.next (.insert d)).store.maxSize = w.store.maxSize ∧
      (w.next (.insert d)).Inv (if Frame.total (docs ++ [d]) ≤ w.store.maxSize then docs ++ [d]
        else Frame.newest w.store.keptSize (docs ++ [d])) := by
  obtain ⟨s', disk', result, -, maxSize, held⟩ := h.holds.insert back fits
  have inserted := h.holds.inPlace.inserted d
  have accepted : (w.store.insert d w.disk).1 = .ok () := by rw [result]
  have grown (within : ¬w.store.Overflows d) :
      (if Frame.total (docs ++ [d]) ≤ w.store.maxSize then docs ++ [d]
        else Frame.newest w.store.keptSize (docs ++ [d])) = docs ++ [d] := by
    apply if_pos
    rw [Segment.Overflows, h.holds.size_eq] at within
    simp only [Frame.total_append, Frame.total_cons, Frame.total_nil]
    omega
  generalize (if Frame.total (docs ++ [d]) ≤ w.store.maxSize then docs ++ [d]
    else Frame.newest w.store.keptSize (docs ++ [d])) = docs' at held grown ⊢
  have known := inserted.cuts_length
  have number := inserted.number_eq
  rw [result] at known number
  have kept : s'.number < disk'.cuts.length := by
    rw [known, number]
    exact h.known
  have readings : (w.next (.insert d)).readings =
      w.readings.map (Reading.offer d (w.store.Overflows d)) := by
    simp only [next, result]
    rfl
  have store : (w.next (.insert d)).store = s' := by simp only [next, result]
  have disk : (w.next (.insert d)).disk = disk' := by simp only [next, result]
  refine ⟨readings, ?_, ?_, ?_, ?_⟩
  · rw [store]
    exact maxSize
  · rw [store, disk]
    exact held
  · rw [store, disk]
    exact kept
  · intro r hr
    rw [readings] at hr
    obtain ⟨old, there, rfl⟩ := List.mem_map.mp hr
    obtain ⟨passed, stands⟩ := h.stands old there
    have offered := stands.offer h.holds h.known accepted grown
    rw [result] at offered
    rw [store, disk]
    exact ⟨passed, offered⟩

/-- Inserting a document, whether it fits or not. -/
theorem insert (h : w.Inv docs) {d : Document} (back : d.ReadsBack) :
    ∃ docs', (w.next (.insert d)).Inv docs' := by
  by_cases fits : d.Fits
  · exact ⟨_, (h.insert_of_fits back fits).2.2⟩
  · simp only [next, Segment.insert_of_not_fits _ _ fits]
    exact ⟨docs, h⟩

/-- One more cursor can always be opened. -/
theorem exists_tail (h : w.Inv docs) (source : Instant) :
    ∃ c, w.next (.tail source) =
      { w with readings := w.readings ++ [⟨c, source, docs, [], false⟩] } := by
  have opened := h.holds.inPlace.tailFrom_eq source
  simp only [next, opened, h.holds.documents_eq]
  exact ⟨_, rfl⟩

/-- Opening one more cursor. -/
theorem tail (h : w.Inv docs) (source : Instant) : (w.next (.tail source)).Inv docs := by
  have opened := h.holds.inPlace.tailFrom_eq source
  simp only [next, opened, h.holds.documents_eq]
  refine ⟨h.holds, h.known, ?_⟩
  intro r hr
  rcases List.mem_append.mp hr with old | new
  · exact h.stands r old
  · rw [List.mem_singleton.mp new]
    exact ⟨[], .opened h.holds opened⟩

/-- Asking one of the cursors. -/
theorem ask (h : w.Inv docs) (number : Nat) : (w.next (.ask number)).Inv docs :=
  ⟨h.holds, h.known,
    forall_mem_modify h.stands (fun _ ⟨_, stands⟩ => stands.ask h.holds) number⟩

/-- Any number of actions. -/
theorem run (h : w.Inv docs) {actions : List Action}
    (reads : ∀ d, .insert d ∈ actions → d.ReadsBack) : ∃ docs', (w.run actions).Inv docs' := by
  induction actions generalizing w docs with
  | nil => exact ⟨docs, h⟩
  | cons action rest ih =>
    have later (d : Document) (hd : .insert d ∈ rest) : d.ReadsBack :=
      reads d (List.mem_cons_of_mem _ hd)
    rw [Readership.run, List.foldl_cons, ← Readership.run]
    cases action with
    | insert d =>
      obtain ⟨docs', h'⟩ := h.insert (reads d List.mem_cons_self)
      exact ih h' later
    | tail source => exact ih (h.tail source) later
    | ask number => exact ih (h.ask number) later

end Inv

/-- The readers of a store that was just opened on a file without a byte. -/
theorem inv_start {path : Path} {maxSize : Nat} {s : Segment} {disk disk' : Disk}
    (opened : Segment.openAt path maxSize disk = (.ok s, disk')) (empty : s.bytes disk' = []) :
    Inv ⟨s, disk', []⟩ [] where
  holds := .of_empty opened empty
  known := Segment.number_lt_of_openAt opened
  stands := by
    intro r hr
    cases hr

end Readership

/-- On one file that was empty when its only store was opened, after any insertions of documents
that are read back from their payloads, and however many cursors were opened and asked in between:
every cursor has answered, in order and each once, the first of the documents from its time on that
were stored when it was opened or inserted since; as long as the file was not cut since then, it
answers the next one of them, and nothing exactly if there is none; after a cut it fails where it
stands, and stays there. -/
theorem Segment.cursors_exact {path : Path} {maxSize : Nat} {s : Segment} {disk disk' : Disk}
    {actions : List Readership.Action} (opened : openAt path maxSize disk = (.ok s, disk'))
    (empty : s.bytes disk' = []) (reads : ∀ d, .insert d ∈ actions → d.ReadsBack) :
    let w := Readership.run ⟨s, disk', []⟩ actions
    (∀ source, ∃ c, w.store.tailFrom source w.disk = .ok c) ∧
      ∀ r ∈ w.readings, r.Exact w.disk := by
  obtain ⟨docs, h⟩ := (Readership.inv_start opened empty).run reads
  constructor
  · intro source
    exact ⟨_, h.holds.inPlace.tailFrom_eq source⟩
  · intro r hr
    obtain ⟨passed, stands⟩ := h.stands r hr
    exact stands.exact h.holds

/-- The first document comes to a cursor that was opened before; the second one leads to a cut, and
does not come. -/
theorem Segment.cursors_exact_until_cut :
    let t : Instant := ⟨0, 0, by decide, by decide, by decide, by decide⟩
    let d : Document := ⟨t, 1, .null⟩
    let actions : List Readership.Action := [.tail t, .insert d, .ask 0, .insert d]
    ∃ s disk', openAt ⟨"traces"⟩ 100 (.ofFile []) = (.ok s, disk') ∧ s.bytes disk' = [] ∧
      (∀ d, .insert d ∈ actions → d.ReadsBack) ∧
      let w := Readership.run ⟨s, disk', []⟩ actions
      ∃ r ∈ w.readings, r.Exact w.disk ∧ r.cut = true ∧ r.offered = [d] ∧ r.found = [d] := by
  intro t d actions
  obtain ⟨s, disk', opened, bytes⟩ := openAt_of_file (Disk.file_ofFile []) 100
  have empty : s.bytes disk' = [] := bytes
  obtain ⟨back, fits, frame⟩ : d.ReadsBack ∧ d.Fits ∧ (Frame.encode d).length = 62 :=
    Frame.encode_keeping_nothing
  have reads : ∀ e, .insert e ∈ actions → e.ReadsBack := by
    intro e he
    simp only [actions, List.mem_cons, Readership.Action.insert.injEq, reduceCtorEq, false_or,
      List.not_mem_nil, or_false, or_self] at he
    rw [he]
    exact back
  have exact := (cursors_exact opened empty reads).2
  refine ⟨s, disk', opened, empty, reads, ?_⟩
  simp only [actions, Readership.run, List.foldl_cons, List.foldl_nil] at exact ⊢
  have h₀ := Readership.inv_start opened empty
  obtain ⟨c, opens⟩ := h₀.exists_tail t
  have h₁ := h₀.tail t
  generalize Readership.next ⟨s, disk', []⟩ (.tail t) = w₁ at exact opens h₁ ⊢
  -- There is room for the first document.
  obtain ⟨readings₂, bound₂, h₂⟩ := h₁.insert_of_fits back fits
  generalize w₁.next (.insert d) = w₂ at exact readings₂ bound₂ h₂ ⊢
  have bound₁ : w₁.store.maxSize = 100 := by
    rw [opens]
    exact (inPlace_of_openAt opened).2.2.1
  have room : ¬w₁.store.Overflows d := by
    rw [Overflows, bound₁, h₁.holds.size_eq, frame]
    decide
  have only₂ : w₂.readings = [⟨c, t, [d], [], false⟩] := by
    rw [readings₂, opens, decide_eq_false (opens ▸ room)]
    rfl
  rw [bound₁, if_pos (by simp [frame])] at h₂
  -- The cursor answers it.
  have answer : (c.tryNext w₂.disk).1 = .ok (some d) := by
    obtain ⟨passed, stands⟩ := h₂.stands ⟨c, t, [d], [], false⟩ (by simp [only₂])
    exact (stands.ask_uncut h₂.holds rfl).1
  have h₃ := h₂.ask 0
  have only₃ : (w₂.next (.ask 0)).readings = [⟨(c.tryNext w₂.disk).2, t, [d], [d], false⟩] := by
    simp only [Readership.next, only₂, List.modify_cons, Reading.ask, answer]
    rfl
  have bound₃ : (w₂.next (.ask 0)).store.maxSize = 100 := bound₂.trans bound₁
  generalize w₂.next (.ask 0) = w₃ at exact h₃ only₃ bound₃ ⊢
  -- With the second one the file is too long.
  have overflows : w₃.store.Overflows d := by
    rw [Overflows, bound₃, h₃.holds.size_eq]
    simp [frame]
  have only₄ := (h₃.insert_of_fits back fits).1
  rw [only₃, decide_eq_true overflows] at only₄
  have there : ⟨(c.tryNext w₂.disk).2, t, [d], [d], true⟩ ∈ (w₃.next (.insert d)).readings := by
    rw [only₄]
    exact List.mem_cons_self
  exact ⟨_, there, exact _ there, rfl, rfl, rfl⟩

end TraceJournal
