import TraceJournal.Proofs.Toml.Written

/-!
# Written sheets

A sheet of values and tables is read back from its text line by line. A line adds its value to the
table opened last, which is the whole sheet before the first header and stands at its end
afterwards.
-/

namespace TraceJournal.Toml

/-! ## Keys -/

theorem writeKey?_eq_some {key : String} {written : List Char} (h : writeKey? key = some written) :
    written = key.toList ∧ ∃ c more, written = c :: more ∧ ∀ d ∈ written, isKeyChar d = true := by
  unfold writeKey? at h
  split at h
  · next plain =>
    cases h
    simp only [Bool.and_eq_true, List.all_eq_true] at plain
    refine ⟨rfl, ?_⟩
    cases front : key.toList with
    | nil =>
      have empty : key = "" := String.toList_eq_nil_iff.mp front
      subst empty
      cases plain.1
    | cons c more =>
      rw [front] at plain
      exact ⟨c, more, rfl, plain.2⟩
  · cases h

/-- A character of a key is neither a blank nor a mark of anything. -/
theorem isKeyChar_ne {c : Char} (h : isKeyChar c = true) {d : Char} (other : isKeyChar d = false) :
    c ≠ d := by
  rintro rfl
  rw [other] at h
  cases h

theorem isGap_of_isKeyChar {c : Char} (h : isKeyChar c = true) : isGap c = false := by
  have space := isKeyChar_ne h (d := ' ') rfl
  have tab := isKeyChar_ne h (d := '\t') rfl
  simp [isGap, space, tab]

/-- A key without marks, with something else behind it than a point. -/
theorem readKey_written {key : String} {written : List Char} (h : writeKey? key = some written)
    (rest : List Char) (stops : ∀ c ∈ rest.head?, isKeyChar c = false)
    (no_point : ∀ more, skipGaps rest ≠ '.' :: more) :
    readKey (written ++ rest) = some (([], key), skipGaps rest) := by
  obtain ⟨same, c, more, front, all⟩ := writeKey?_eq_some h
  have first : isKeyChar c = true := all c (by simp [front])
  have gap : skipGaps (written ++ rest) = written ++ rest := by
    rw [front]
    exact skipGaps_of_head (isGap_of_isKeyChar first) (more ++ rest)
  have taken : (written ++ rest).takeWhile isKeyChar = written := Text.takeWhile_run all stops
  have left : (written ++ rest).dropWhile isKeyChar = rest := Text.dropWhile_run all stops
  have part : readKeyPart (written ++ rest) = some (key, rest) := by
    unfold readKeyPart
    split
    · next start =>
      rw [front] at start
      exact absurd (List.head_eq_of_cons_eq start) (isKeyChar_ne first rfl)
    · next start =>
      rw [front] at start
      exact absurd (List.head_eq_of_cons_eq start) (isKeyChar_ne first rfl)
    · rw [taken, left, if_neg (by simp [front]), same, String.ofList_toList]
  have parts : readKeyParts ((written ++ rest).length + 1) (written ++ rest) =
      some ([key], skipGaps rest) := by
    rw [readKeyParts, gap, part]
    simp only [bind, Option.bind]
    rfl
  unfold readKey
  rw [parts]
  rfl

/-! ## Places for values -/

/-- Sheets that differ in the entries of the table opened last, and to which a line with a new key
adds its entry. -/
structure Place (sheet : List (String × Toml) → Sheet) : Prop where
  add : ∀ {inner : List (String × Toml)} {key : String} {value : Toml},
    key ∉ inner.map (·.1) →
      update false (addValue [] key value) (sheet inner).current .headed (sheet inner).entries =
        some (sheet (inner ++ [(key, value)])).entries
  current : ∀ inner more, (sheet inner).current = (sheet more).current

theorem lookup_of_new {key : String} {entries : List (String × Toml)}
    (new : key ∉ entries.map (·.1)) : entries.lookup key = none := by
  rw [List.lookup_eq_none_iff]
  intro entry inside
  rw [bne_iff_ne]
  rintro rfl
  exact new (List.mem_map_of_mem inside)

theorem lookup_last {key : String} {entries : List (String × Toml)} (value : Toml)
    (new : key ∉ entries.map (·.1)) : (entries ++ [(key, value)]).lookup key = some value := by
  simp [List.lookup_append, lookup_of_new new]

theorem replace_last {key : String} {entries : List (String × Toml)} (value other : Toml)
    (new : key ∉ entries.map (·.1)) :
    replace key other (entries ++ [(key, value)]) = entries ++ [(key, other)] := by
  have stays : ∀ entry ∈ entries,
      (fun entry : String × Toml => if entry.1 = key then (entry.1, other) else entry) entry =
        entry := by
    intro entry inside
    refine if_neg ?_
    rintro rfl
    exact new (List.mem_map_of_mem inside)
  rw [replace, List.map_append, List.map_congr_left stays, List.map_id']
  simp

theorem addValue_headed {entries : List (String × Toml)} {key : String} (value : Toml)
    (new : key ∉ entries.map (·.1)) :
    addValue [] key value .headed entries = some (entries ++ [(key, value)]) := by
  simp [addValue, update, lookup_of_new new]

/-- In front of the first header every line adds to the whole sheet. -/
theorem Place.front : Place fun entries => ⟨entries, []⟩ where
  add new := addValue_headed _ new
  current _ _ := rfl

/-- Behind a header every line adds to the table at the end of the sheet. -/
theorem Place.table {front : List (String × Toml)} {name : String}
    (new : name ∉ front.map (·.1)) :
    Place fun inner => ⟨front ++ [(name, .table .headed inner)], [name]⟩ where
  add fresh := by
    simp [update, lookup_last _ new, replace_last _ _ new, addValue_headed _ fresh]
  current _ _ := rfl

/-! ## Lines -/

/-- From `sheet` on, the lines of `input` lead to a sheet with the given entries. -/
def Completes (sheet : Sheet) (input : List Char) (entries : List (String × Toml)) : Prop :=
  ∀ rounds, input.length < rounds →
    (readSheet rounds sheet input).map (·.entries) = some entries

theorem Completes.ended (sheet : Sheet) : Completes sheet [] sheet.entries := by
  intro rounds enough
  obtain ⟨rounds, rfl⟩ := Nat.exists_eq_add_one.mpr enough
  rfl

/-- Some characters are taken off in one round, and the rest leads to the entries. -/
theorem Completes.step {sheet after : Sheet} {input rest : List Char}
    {entries : List (String × Toml)}
    (line : ∀ rounds, readSheet (rounds + 1) sheet input = readSheet rounds after rest)
    (shorter : rest.length < input.length) (h : Completes after rest entries) :
    Completes sheet input entries := by
  intro rounds enough
  obtain ⟨rounds, rfl⟩ := Nat.exists_eq_add_one.mpr (Nat.zero_lt_of_lt enough)
  rw [line]
  exact h rounds (by omega)

/-- A line that starts with a character of a key. -/
theorem readSheet_assignment {c : Char} (first : isKeyChar c = true) (rounds : Nat) (sheet : Sheet)
    (input : List Char) :
    readSheet (rounds + 1) sheet (c :: input) =
      (readAssignment sheet (c :: input)).bind fun line => readSheet rounds line.1 line.2 := by
  have no_comment : ¬(c = '#' ∨ c = '\n' ∨ c = '\r') := by
    rintro (rfl | rfl | rfl)
    all_goals cases first
  rw [readSheet, skipGaps_of_head (isGap_of_isKeyChar first)]
  split
  · next same => cases same
  · next same => exact absurd (List.head_eq_of_cons_eq same) (isKeyChar_ne first rfl)
  · next same =>
    cases same
    rw [if_neg no_comment]
    rfl

/-- An empty line. -/
theorem Completes.feed {sheet : Sheet} {input : List Char} {entries : List (String × Toml)}
    (h : Completes sheet input entries) : Completes sheet ('\n' :: input) entries :=
  .step (fun _ => rfl) (Nat.lt_succ_self _) h

/-- The value of a line begins after the blanks. -/
theorem head_writeValue {value : Toml} {written : List Char}
    (h : writeValue? value = some written) :
    ∃ c more, written = c :: more ∧ isGap c = false := by
  unfold writeValue? at h
  split at h
  · rw [Option.map_eq_map, Option.map_eq_some_iff] at h
    obtain ⟨forms, -, rfl⟩ := h
    unfold writeItems
    split
    all_goals exact ⟨_, _, rfl, rfl⟩
  · obtain ⟨c, more, front, opens⟩ := opensLeaf_of_writeLeaf h
    exact ⟨c, more, front, isGap_of_opensLeaf opens⟩

/-- The key and the value of a line are read back, and go into the table opened last. -/
theorem readAssignment_written {place : List (String × Toml) → Sheet} (holds : Place place)
    {inner : List (String × Toml)} {key : String} {value : Toml} {name form : List Char}
    (named : writeKey? key = some name) (formed : writeValue? value = some form)
    (new : key ∉ inner.map (·.1)) (input : List Char) :
    readAssignment (place inner) (name ++ ' ' :: '=' :: ' ' :: (form ++ '\n' :: input)) =
      some (place (inner ++ [(key, value)]), input) := by
  have keyed := readKey_written named (' ' :: '=' :: ' ' :: (form ++ '\n' :: input))
    (by simp [isKeyChar]) (by simp [skipGaps, isGap])
  have gaps : skipGaps (' ' :: '=' :: ' ' :: (form ++ '\n' :: input)) =
      '=' :: ' ' :: (form ++ '\n' :: input) := rfl
  have ends : EndsValue ('\n' :: input) := ⟨'\n', input, rfl, rfl⟩
  have valued := readValue_written formed ends 78
  obtain ⟨c, more, front, gap⟩ := head_writeValue formed
  have start : skipGaps (' ' :: (form ++ '\n' :: input)) = form ++ '\n' :: input := by
    rw [front]
    exact skipGaps_of_head gap (more ++ '\n' :: input)
  have ended : finishLine ('\n' :: input) = some input := rfl
  unfold readAssignment
  rw [keyed, gaps]
  simp only [bind, Option.bind, expect, if_true, start]
  rw [maxDepth, valued]
  simp only [ended, holds.add new]
  rw [holds.current inner (inner ++ [(key, value)])]
  rfl

/-- A line with a new key and a value. -/
theorem Completes.entry {place : List (String × Toml) → Sheet} (holds : Place place)
    {inner entries : List (String × Toml)} {entry : String × Toml} {line input : List Char}
    (written : writeEntry? entry = some line) (new : entry.1 ∉ inner.map (·.1))
    (h : Completes (place (inner ++ [entry])) input entries) :
    Completes (place inner) (line ++ input) entries := by
  obtain ⟨key, value⟩ := entry
  simp only [ writeEntry?, Option.bind_eq_bind, Option.bind_eq_some_iff, Option.pure_def,
    Option.some.injEq] at written
  obtain ⟨name, named, form, formed, rfl⟩ := written
  have read := readAssignment_written holds named formed new input
  have whole : name ++ " = ".toList ++ form ++ ['\n'] ++ input =
      name ++ ' ' :: '=' :: ' ' :: (form ++ '\n' :: input) := by simp
  rw [whole]
  obtain ⟨-, c, more, front, all⟩ := writeKey?_eq_some named
  have first : isKeyChar c = true := all c (by simp [front])
  rw [front, List.cons_append] at read ⊢
  refine .step ?_ (by simp; omega) h
  intro rounds
  rw [readSheet_assignment first, read]
  rfl

/-- Lines with new keys, one after the other. -/
theorem Completes.entries {place : List (String × Toml) → Sheet} (holds : Place place)
    (inner : List (String × Toml)) {added entries : List (String × Toml)} {lines input : List Char}
    (written : writeEntries? added = some lines) (distinct : ((inner ++ added).map (·.1)).Nodup)
    (h : Completes (place (inner ++ added)) input entries) :
    Completes (place inner) (lines ++ input) entries := by
  rw [writeEntries?, Option.map_eq_map, Option.map_eq_some_iff] at written
  obtain ⟨forms, written, rfl⟩ := written
  induction added generalizing inner forms with
  | nil =>
    rw [List.mapM_nil, Option.pure_def, Option.some.injEq] at written
    subst written
    rwa [List.append_nil] at h
  | cons entry added ih =>
    obtain ⟨line, more, first, later, rfl⟩ := mapM_cons_eq_some_iff.mp written
    rw [List.append_cons] at distinct h
    have new : entry.1 ∉ inner.map (·.1) := by
      intro old
      rw [List.map_append, List.map_append] at distinct
      have front := (List.nodup_append.mp distinct).1
      exact (List.nodup_append.mp front).2.2 _ old _ List.mem_cons_self rfl
    rw [List.flatten_cons, List.append_assoc]
    exact (ih (inner ++ [entry]) distinct h more later).entry holds first new

/-- A header with a new name, after an empty line. -/
theorem Completes.header {sheet : Sheet} {entries : List (String × Toml)} {name : String}
    {written input : List Char} (named : writeKey? name = some written)
    (new : name ∉ sheet.entries.map (·.1))
    (h : Completes ⟨sheet.entries ++ [(name, .table .headed [])], [name]⟩ input entries) :
    Completes sheet ("\n[".toList ++ written ++ "]\n".toList ++ input) entries := by
  have keyed := readKey_written named (']' :: '\n' :: input) (by simp [isKeyChar])
    (by simp [skipGaps, isGap])
  have gaps : skipGaps (']' :: '\n' :: input) = ']' :: '\n' :: input := rfl
  have ended : finishLine ('\n' :: input) = some input := rfl
  have opened : openTable [] name .headed sheet.entries =
      some (sheet.entries ++ [(name, .table .headed [])]) := by
    simp [openTable, update, lookup_of_new new]
  have read : readHeader sheet ('[' :: (written ++ ']' :: '\n' :: input)) =
      some (⟨sheet.entries ++ [(name, .table .headed [])], [name]⟩, input) := by
    obtain ⟨-, c, more, front, all⟩ := writeKey?_eq_some named
    have first : isKeyChar c = true := all c (by simp [front])
    unfold readHeader
    split
    · next same =>
      rw [front] at same
      have bracket := List.head_eq_of_cons_eq (List.tail_eq_of_cons_eq same)
      exact absurd bracket (isKeyChar_ne first rfl)
    · next same =>
      cases same
      rw [keyed, gaps]
      simp only [bind, Option.bind, expect, if_true, ended, opened]
      rfl
    · next other => exact absurd rfl (other _)
  have whole : "\n[".toList ++ written ++ "]\n".toList ++ input =
      '\n' :: '[' :: (written ++ ']' :: '\n' :: input) := by simp
  rw [whole]
  refine .feed (.step ?_ (by simp; omega) h)
  intro rounds
  have line : readSheet (rounds + 1) sheet ('[' :: (written ++ ']' :: '\n' :: input)) =
      (readHeader sheet ('[' :: (written ++ ']' :: '\n' :: input))).bind
        fun line => readSheet rounds line.1 line.2 := rfl
  rw [line, read]
  rfl

/-- Tables under their headers, one after the other. -/
theorem Completes.tables {tables : List (String × List (String × Toml))} (sheet : Sheet)
    {forms : List (List Char)} (written : tables.mapM writeTable? = some forms)
    (distinct : (sheet.entries.map (·.1) ++ tables.map (·.1)).Nodup)
    (inside : ∀ t ∈ tables, (t.2.map (·.1)).Nodup) :
    Completes sheet forms.flatten
      (sheet.entries ++ tables.map fun t => (t.1, .table .headed t.2)) := by
  induction tables generalizing sheet forms with
  | nil =>
    rw [List.mapM_nil, Option.pure_def, Option.some.injEq] at written
    subst written
    rw [List.map_nil, List.append_nil]
    exact .ended sheet
  | cons table tables ih =>
    obtain ⟨form, more, first, later, rfl⟩ := mapM_cons_eq_some_iff.mp written
    obtain ⟨name, inner⟩ := table
    obtain ⟨own, others⟩ := List.forall_mem_cons.mp inside
    have new : name ∉ sheet.entries.map (·.1) := by
      intro old
      exact (List.nodup_append.mp distinct).2.2 _ old _ List.mem_cons_self rfl
    simp only [writeTable?, Option.bind_eq_bind, Option.bind_eq_some_iff, Option.pure_def,
      Option.some.injEq] at first
    obtain ⟨key, named, lines, lined, rfl⟩ := first
    have rest := ih ⟨sheet.entries ++ [(name, .table .headed inner)], [name]⟩ later
      (by simpa using distinct) others
    have filled := rest.entries (.table new) [] lined own
    have whole : "\n[".toList ++ key ++ "]\n".toList ++ lines ++ more.flatten =
        "\n[".toList ++ key ++ "]\n".toList ++ (lines ++ more.flatten) := by simp
    rw [List.flatten_cons, List.map_cons, List.append_cons, whole]
    exact filled.header named new

/-! ## Whole sheets -/

/-- No line starts with a byte order mark. -/
theorem not_completes_mark (sheet : Sheet) (input : List Char) (entries : List (String × Toml)) :
    ¬Completes sheet ('\ufeff' :: input) entries := by
  intro h
  have completes := h (input.length + 2) (by simp)
  have none_read : readSheet (input.length + 2) sheet ('\ufeff' :: input) = none := rfl
  rw [none_read] at completes
  cases completes

/-- What is written of values and tables is read back, the values first. -/
theorem read_write? {entries : List (String × Toml)} {text : String}
    (written : write? entries = some text)
    (distinct : ((valuesOf entries).map (·.1) ++ (tablesOf entries).map (·.1)).Nodup)
    (inside : ∀ t ∈ tablesOf entries, (t.2.map (·.1)).Nodup) :
    read text = some (.table .headed
      (valuesOf entries ++ (tablesOf entries).map fun t => (t.1, .table .headed t.2))) := by
  simp only [write?, Option.bind_eq_bind, Option.bind_eq_some_iff, Option.pure_def,
    Option.some.injEq] at written
  obtain ⟨values, first, tables, later, rfl⟩ := written
  have below := Completes.tables ⟨valuesOf entries, []⟩ later distinct inside
  have completes := below.entries .front [] first (List.nodup_append.mp distinct).1
  have no_mark : ∀ rest, values ++ tables.flatten ≠ '\ufeff' :: rest := by
    intro rest same
    rw [same] at completes
    exact not_completes_mark _ _ _ completes
  have found := completes _ (Nat.lt_succ_self _)
  rw [Option.map_eq_some_iff] at found
  obtain ⟨sheet, found, same⟩ := found
  unfold read
  rw [String.toList_ofList]
  simp only [bind, Option.bind, found, same]
  rfl

end TraceJournal.Toml
