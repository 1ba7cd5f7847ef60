import TraceJournal.Files.Volume

/-!
# Opening files again

A path that leads to a file goes on to lead to it when other files are added or written, and opening
it once more finds the same file and changes nothing: the directories that it stands in are there
already.
-/

namespace TraceJournal

namespace Volume

variable {v : Volume}

/-! ## Where a path leads -/

/-- A path leads to a file when its steps lead through directories to one that has its name. -/
theorem file_eq_ok_iff {p : Path} {n : Nat} :
    v.file p = .ok n ↔ p.check = .ok () ∧ ∃ way name, v.walk [] p.way = .ok way ∧
      p.goal = .into name ∧ v.named ⟨endOf way, name⟩ = .ok (.file n) ∧ p.endsInSlash = false := by
  unfold file find
  cases hc : p.check with
  | error e => simp [bind, Except.bind]
  | ok =>
    cases hw : v.walk [] p.way with
    | error e => simp [bind, Except.bind]
    | ok way =>
      cases hg : p.goal with
      | here => simp [bind, Except.bind, pure, Except.pure]
      | up => simp [bind, Except.bind, pure, Except.pure]
      | into name =>
        cases hn : v.named ⟨endOf way, name⟩ with
        | error e => simp [bind, Except.bind, hn]
        | ok entry =>
          cases entry with
          | directory d => simp [bind, Except.bind, pure, Except.pure, hn]
          | file m =>
            cases hs : p.endsInSlash <;> simp [bind, Except.bind, pure, Except.pure, hn]

theorem mem_entries_of_named {place : Place} {entry : Entry} (h : v.named place = .ok entry) :
    (place, entry) ∈ v.entries := by
  unfold named at h
  split at h
  · cases h
  · cases hl : v.entries.lookup place with
    | none =>
      rw [hl] at h
      cases h
    | some found =>
      rw [hl] at h
      cases h
      obtain ⟨front, behind, he, -⟩ := List.lookup_eq_some_iff.mp hl
      rw [he]
      exact List.mem_append_right _ List.mem_cons_self

/-- What a path leads to is there. -/
theorem lt_of_file {p : Path} {n : Nat} (h : v.file p = .ok n) : n < v.contents.length := by
  obtain ⟨-, way, name, -, -, named, -⟩ := file_eq_ok_iff.mp h
  exact v.file_lt _ n (mem_entries_of_named named)

theorem walk_write (v : Volume) (number : Nat) (bytes : List UInt8) (way : List Nat)
    (steps : List Path.Step) : (v.write number bytes).walk way steps = v.walk way steps := by
  induction steps generalizing way with
  | nil => rfl
  | cons step rest ih =>
    cases step with
    | here => exact ih way
    | up => exact ih way.tail
    | into name =>
      have same : (v.write number bytes).named ⟨endOf way, name⟩ = v.named ⟨endOf way, name⟩ := rfl
      simp only [walk, same]
      cases v.named ⟨endOf way, name⟩ with
      | error e => rfl
      | ok entry =>
        cases entry with
        | file n => rfl
        | directory n => exact ih (n :: way)

/-- Writing changes nothing of where paths lead. -/
theorem file_write (v : Volume) (number : Nat) (bytes : List UInt8) (p : Path) :
    (v.write number bytes).file p = v.file p := by
  have named (place : Place) : (v.write number bytes).named place = v.named place := rfl
  simp only [file, find, walk_write, named]

theorem named_addFile_of_ne {place other : Place} (h : other ≠ place) :
    (v.addFile place).2.named other = v.named other := by
  unfold named addFile
  rw [List.lookup_cons, beq_false_of_ne h]

theorem named_addFile {place : Place} (missing : v.named place = .error .missing) :
    (v.addFile place).2.named place = .ok (.file v.contents.length) := by
  unfold named at missing ⊢
  split at missing
  · cases missing
  · next fits =>
    rw [if_neg fits]
    simp [addFile]

/-- A way through directories stays one when a file is added where nothing was. -/
theorem walk_addFile {place : Place} (missing : v.named place = .error .missing)
    {way stop : List Nat} {steps : List Path.Step} (h : v.walk way steps = .ok stop) :
    (v.addFile place).2.walk way steps = .ok stop := by
  induction steps generalizing way with
  | nil => exact h
  | cons step rest ih =>
    cases step with
    | here => exact ih h
    | up => exact ih h
    | into name =>
      simp only [walk] at h ⊢
      have other : (⟨endOf way, name⟩ : Place) ≠ place := by
        intro same
        rw [same, missing] at h
        cases h
      rw [named_addFile_of_ne other]
      cases hn : v.named ⟨endOf way, name⟩ with
      | error e =>
        rw [hn] at h
        cases h
      | ok entry =>
        rw [hn] at h
        cases entry with
        | file n => cases h
        | directory n => exact ih h

/-! ## Opening -/

/-- A path that was opened leads to the file that was opened. -/
theorem file_of_openOrCreate {p : Path} {n : Nat} {v' : Volume}
    (h : v.openOrCreate p = .ok (n, v')) : v'.file p = .ok n := by
  unfold openOrCreate at h
  cases hc : p.check with
  | error e => rw [hc] at h; cases h
  | ok =>
    cases hw : v.walk [] p.way with
    | error e => rw [hc, hw] at h; cases h
    | ok way =>
      rw [hc, hw] at h
      cases hg : p.goal with
      | here => rw [hg] at h; cases h
      | up => rw [hg] at h; cases h
      | into name =>
        cases hs : p.endsInSlash with
        | true => simp [bind, Except.bind, hg, hs, throw, throwThe, MonadExceptOf.throw] at h
        | false =>
          simp only [bind, Except.bind, hg, hs, Bool.false_eq_true, if_false, pure, Except.pure]
            at h
          cases hn : v.named ⟨endOf way, name⟩ with
          | ok entry =>
            rw [hn] at h
            cases entry with
            | directory d => cases h
            | file m =>
              cases h
              exact file_eq_ok_iff.mpr ⟨hc, way, name, hw, hg, hn, hs⟩
          | error e =>
            rw [hn] at h
            cases e with
            | missing =>
              cases h
              exact file_eq_ok_iff.mpr
                ⟨hc, way, name, walk_addFile hn hw, hg, named_addFile hn, hs⟩
            | _ => cases h

/-- Opening what a path leads to finds it and changes nothing. -/
theorem openOrCreate_of_file {p : Path} {n : Nat} (h : v.file p = .ok n) :
    v.openOrCreate p = .ok (n, v) := by
  obtain ⟨hc, way, name, hw, hg, hn, hs⟩ := file_eq_ok_iff.mp h
  simp [openOrCreate, hc, hw, hg, hn, hs, bind, Except.bind, pure, Except.pure]

/-- Where there is a way already, no directory has to be made. -/
theorem makeWay_of_walk {way stop : List Nat} {steps : List Path.Step} (made : Bool)
    (h : v.walk way steps = .ok stop) : v.makeWay made way steps = (.ok (), v) := by
  induction steps generalizing way with
  | nil => rfl
  | cons step rest ih =>
    cases step with
    | here => exact ih h
    | up => exact ih h
    | into name =>
      simp only [walk] at h
      simp only [makeWay]
      cases hn : v.named ⟨endOf way, name⟩ with
      | error e =>
        rw [hn] at h
        cases h
      | ok entry =>
        rw [hn] at h
        cases entry with
        | file n => cases h
        | directory n => exact ih h

theorem walk_front {way stop : List Nat} {front behind : List Path.Step}
    (h : v.walk way (front ++ behind) = .ok stop) : ∃ mid, v.walk way front = .ok mid := by
  induction front generalizing way with
  | nil => exact ⟨way, rfl⟩
  | cons step rest ih =>
    cases step with
    | here => exact ih h
    | up => exact ih h
    | into name =>
      simp only [List.cons_append, walk] at h ⊢
      cases hn : v.named ⟨endOf way, name⟩ with
      | error e =>
        rw [hn] at h
        cases h
      | ok entry =>
        rw [hn] at h
        cases entry with
        | file n => cases h
        | directory n => exact ih h

end Volume

/-! ## The directory of a path -/

private theorem not_mem_of_mem_splitOn {sep : Char} {chars piece : List Char}
    (h : piece ∈ chars.splitOn sep) : sep ∉ piece := by
  induction chars generalizing piece with
  | nil =>
    rw [List.splitOn_nil, List.mem_singleton] at h
    rw [h]
    exact List.not_mem_nil
  | cons c rest ih =>
    rw [List.splitOn_cons_eq_if_modifyHead] at h
    split at h
    · rcases List.mem_cons.mp h with rfl | hm
      · exact List.not_mem_nil
      · exact ih hm
    · next other =>
      cases hs : rest.splitOn sep with
      | nil => exact absurd hs (List.splitOn_ne_nil _ _)
      | cons first others =>
        rw [hs] at ih h
        rcases List.mem_cons.mp h with rfl | hm
        · intro hm
          rcases List.mem_cons.mp hm with rfl | hm
          · exact other (beq_self_eq_true _)
          · exact ih List.mem_cons_self hm
        · exact ih (List.mem_cons_of_mem _ hm)

private theorem dropWhile_eq_of_imp {α : Type} {p q : α → Bool} (imp : ∀ a, p a = true → q a = true)
    {list rest : List α} {a : α} (h : list.dropWhile p = a :: rest) (stays : q a = false) :
    list.dropWhile q = a :: rest := by
  induction list with
  | nil => cases h
  | cons b others ih =>
    rw [List.dropWhile_cons] at h ⊢
    by_cases hp : p b = true
    · rw [if_pos hp] at h
      rw [if_pos (imp b hp)]
      exact ih h
    · rw [if_neg hp] at h
      cases h
      rw [if_neg (by rw [stays]; exact Bool.false_ne_true)]

namespace Path

theorem slash_not_mem_of_mem_parts {p : Path} {part : String} (h : part ∈ p.parts) :
    '/' ∉ part.toList := by
  obtain ⟨chars, hm, rfl⟩ := List.mem_map.mp h
  rw [String.toList_ofList]
  exact not_mem_of_mem_splitOn hm

theorem ofParts_parts (p : Path) : ofParts p.parts = p := by
  have chars : ("/".intercalate p.parts).toList = p.text.toList := by
    rw [String.toList_intercalate, parts, List.map_map]
    have same : String.toList ∘ String.ofList = id := by
      funext l
      exact String.toList_ofList
    rw [same, List.map_id]
    exact List.intercalate_splitOn '/'
  rw [ofParts, String.toList_inj.mp chars]

theorem parts_ofParts {parts : List String} (h : ∀ part ∈ parts, '/' ∉ part.toList)
    (nonempty : parts ≠ []) : (ofParts parts).parts = parts := by
  have apart : (ofParts parts).text.toList.splitOn '/' = parts.map String.toList := by
    rw [ofParts, String.toList_intercalate]
    apply List.splitOn_intercalate
    · intro chars hm
      obtain ⟨part, hp, rfl⟩ := List.mem_map.mp hm
      exact h part hp
    · intro empty
      exact nonempty (List.map_eq_nil_iff.mp empty)
  rw [Path.parts, apart, List.map_map]
  have same : String.ofList ∘ String.toList = id := by
    funext s
    exact String.ofList_toList
  rw [same, List.map_id]

/-- The parts of the directory of a file come first among those of its path, and the way to the file
begins with them. -/
theorem directory_eq {p : Path} {name : String} (h : p.goal = .into name) :
    ∃ front skipped behind, p.directory = ofParts front ∧
      p.way = (front ++ skipped).map .ofPart ∧ p.parts = front ++ behind ∧ behind ≠ [] := by
  have leadsNowhere (part : String) (empty : decide (part = "") = true) :
      decide (Step.ofPart part = .here) = true := by
    rw [of_decide_eq_true empty]
    rfl
  cases hb : p.partsBack with
  | nil =>
    rw [goal, hb] at h
    cases h
  | cons last back =>
    rw [goal, hb, List.headD_cons] at h
    have trimmed : p.parts.reverse.dropWhile (fun part => Step.ofPart part = .here) = last :: back :=
      dropWhile_eq_of_imp leadsNowhere hb (by rw [h]; rfl)
    refine ⟨(back.dropWhile (fun part => Step.ofPart part = .here)).reverse,
      (back.takeWhile (fun part => Step.ofPart part = .here)).reverse,
      (back.takeWhile (fun part => Step.ofPart part = .here)).reverse ++
        (p.parts.reverse.takeWhile (· = "") ++ [last]).reverse, ?_, ?_, ?_, ?_⟩
    · simp only [directory, trimmed, List.drop_one, List.tail_cons]
    · rw [way, hb, ← List.reverse_append, List.takeWhile_append_dropWhile]
      rfl
    · have whole : p.parts.reverse = p.parts.reverse.takeWhile (· = "") ++ last :: back := by
        rw [← hb, partsBack, List.takeWhile_append_dropWhile]
      rw [← List.append_assoc, ← List.reverse_append, List.takeWhile_append_dropWhile,
        ← List.reverse_append, List.append_assoc, List.singleton_append, ← whole,
        List.reverse_reverse]
    · simp

theorem check_ofParts_nil : (ofParts []).check = .error .missing := by
  simp [check, ofParts, limit]

/-- The first parts of a usable path make one, unless there are none. -/
theorem check_ofParts {p : Path} {front behind : List String} (usable : p.check = .ok ())
    (parts : p.parts = front ++ behind) (some : front ≠ []) (more : behind ≠ []) :
    (ofParts front).check = .ok () ∨ (ofParts front).check = .error .missing := by
  have text : p.text = (ofParts front).text ++ "/" ++ (ofParts behind).text := by
    rw [← ofParts_parts p, parts]
    exact String.intercalate_append_of_ne_nil some more
  unfold check at usable ⊢
  rw [text] at usable
  split at usable
  · cases usable
  · next clean =>
    split at usable
    · cases usable
    · next short =>
      rw [String.contains_char_eq, String.toList_append, String.toList_append] at clean
      rw [String.utf8ByteSize_append, String.utf8ByteSize_append] at short
      rw [String.contains_char_eq, if_neg, if_neg (by omega)]
      · split
        · exact .inr rfl
        · exact .inl rfl
      · intro found
        apply clean
        apply decide_eq_true
        have within := of_decide_eq_true found
        exact List.mem_append_left _ (List.mem_append_left _ within)

end Path

namespace Volume

variable {v : Volume}

/-- The directory of a file is there already. -/
theorem createDirectories_of_file {p : Path} {n : Nat} (h : v.file p = .ok n) :
    v.createDirectories p.directory = (.ok (), v) := by
  obtain ⟨hc, way, name, hw, hg, -, -⟩ := file_eq_ok_iff.mp h
  obtain ⟨front, skipped, behind, hd, hway, hp, more⟩ := Path.directory_eq hg
  unfold createDirectories
  rw [hd]
  by_cases nonempty : front = []
  · rw [nonempty, Path.check_ofParts_nil]
  · rcases Path.check_ofParts hc hp nonempty more with usable | missing
    · rw [usable]
      have apart : (Path.ofParts front).parts = front := by
        apply Path.parts_ofParts _ nonempty
        intro part hm
        have within : part ∈ p.parts := by
          rw [hp]
          exact List.mem_append_left _ hm
        exact Path.slash_not_mem_of_mem_parts within
      rw [hway, List.map_append] at hw
      obtain ⟨stop, walked⟩ := walk_front hw
      rw [apart]
      exact makeWay_of_walk false walked
    · rw [missing]

end Volume

end TraceJournal
