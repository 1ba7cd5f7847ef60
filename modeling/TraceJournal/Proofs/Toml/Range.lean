import TraceJournal.Toml.Reader

/-!
# Integers that are read

No integer of more than 64 bits, with one of them for the sign, is read anywhere in a file: where
digits are read the range is checked, and everything else only puts together what was read.
-/

namespace TraceJournal.Toml

/-- All integers in a value are in range. -/
inductive Bounded : Toml → Prop where
  | text (s : String) : Bounded (.text s)
  | integer {n : Int} (h : inRange n = true) : Bounded (.integer n)
  | decimal (x : Option Binary64) : Bounded (.decimal x)
  | boolean (b : Bool) : Bounded (.boolean b)
  | moment : Bounded .moment
  | array {items : List Toml} (h : ∀ item ∈ items, Bounded item) : Bounded (.array items)
  | table (kind : TableKind) {entries : List (String × Toml)}
      (h : ∀ entry ∈ entries, Bounded entry.2) : Bounded (.table kind entries)
  | tables {rows : List (List (String × Toml))}
      (h : ∀ row ∈ rows, ∀ entry ∈ row, Bounded entry.2) : Bounded (.tables rows)

/-- All integers in the values of some entries are in range. -/
def AllBounded (entries : List (String × Toml)) : Prop := ∀ entry ∈ entries, Bounded entry.2

/-- A reader answers only values whose integers are in range. -/
def Bounds (reader : Scan Toml) : Prop :=
  ∀ {input value rest}, reader input = some (value, rest) → Bounded value

/-! ## Numbers -/

theorem bounded_checked {n : Int} {value : Toml} (h : checked n = some value) : Bounded value := by
  unfold checked at h
  split at h
  · next fits =>
    cases h
    exact .integer fits
  · cases h

theorem bounded_decimalOf {sign digits : List Char} {value : Toml}
    (h : decimalOf sign digits = some value) : Bounded value := by
  simp only [decimalOf, Option.bind_eq_bind, Option.bind_eq_some_iff] at h
  obtain ⟨x, -, h⟩ := h
  split at h
  · cases h
  · cases h
    exact .decimal x

theorem bounds_readBased (base : Nat) : Bounds (readBased base) := by
  intro input value rest h
  simp only [readBased, Option.bind_eq_bind, Option.bind_eq_some_iff, Option.pure_def,
    Option.some.injEq] at h
  obtain ⟨⟨digits, rest'⟩, -, answer, known, same⟩ := h
  cases same
  exact bounded_checked known

theorem bounds_readDecimal (sign : List Char) : Bounds (readDecimal sign) := by
  intro input value rest h
  simp only [readDecimal, Option.bind_eq_bind, Option.bind_eq_some_iff] at h
  obtain ⟨⟨whole, behind⟩, -, h⟩ := h
  split at h
  · simp only [Option.bind_eq_some_iff, Option.pure_def, Option.some.injEq] at h
    obtain ⟨places, -, exponent, -, answer, known, same⟩ := h
    cases same
    exact bounded_decimalOf known
  · simp only [Option.bind_eq_some_iff, Option.pure_def] at h
    obtain ⟨exponent, -, h⟩ := h
    split at h
    · simp only [Option.bind_eq_some_iff, Option.some.injEq] at h
      obtain ⟨answer, known, same⟩ := h
      cases same
      exact bounded_checked known
    · simp only [Option.bind_eq_some_iff, Option.some.injEq] at h
      obtain ⟨answer, known, same⟩ := h
      cases same
      exact bounded_decimalOf known

theorem bounds_readSigned (sign : List Char) : Bounds (readSigned sign) := by
  intro input value rest h
  unfold readSigned at h
  split at h
  · cases h
    exact .decimal none
  · cases h
    exact .decimal none
  · exact bounds_readDecimal sign h

theorem bounds_readMoment : Bounds readMoment := by
  intro input value rest h
  unfold readMoment at h
  split at h
  · simp only [Option.bind_eq_bind, Option.bind_eq_some_iff] at h
    obtain ⟨behind, -, h⟩ := h
    split at h
    · split at h
      · simp only [Option.bind_eq_some_iff, Option.pure_def, Option.some.injEq] at h
        obtain ⟨time, -, offset, -, same⟩ := h
        cases same
        exact .moment
      · cases h
        exact .moment
    · cases h
      exact .moment
  · simp only [Option.bind_eq_bind, Option.bind_eq_some_iff, Option.pure_def, Option.some.injEq] at h
    obtain ⟨behind, -, same⟩ := h
    cases same
    exact .moment

theorem bounds_readNumber : Bounds readNumber := by
  intro input value rest h
  unfold readNumber at h
  split at h
  · exact bounds_readMoment h
  · split at h
    · exact bounds_readBased 16 h
    · exact bounds_readBased 8 h
    · exact bounds_readBased 2 h
    · exact bounds_readSigned _ h
    · exact bounds_readSigned _ h
    · exact bounds_readSigned _ h

theorem bounds_readLeaf : Bounds readLeaf := by
  intro input value rest h
  unfold readLeaf at h
  split at h
  · simp only [Option.bind_eq_bind, Option.bind_eq_some_iff, Option.pure_def, Option.some.injEq] at h
    obtain ⟨⟨s, behind⟩, -, same⟩ := h
    cases same
    exact .text s
  · simp only [Option.bind_eq_bind, Option.bind_eq_some_iff, Option.pure_def, Option.some.injEq] at h
    obtain ⟨⟨s, behind⟩, -, same⟩ := h
    cases same
    exact .text s
  · cases h
    exact .boolean true
  · cases h
    exact .boolean false
  · exact bounds_readNumber h

/-! ## Tables that grow -/

section Tables

variable {entries grown : List (String × Toml)} {key : String} {value : Toml}

theorem AllBounded.nil : AllBounded [] := List.forall_mem_nil _

theorem AllBounded.append (h : AllBounded entries) (own : Bounded value) :
    AllBounded (entries ++ [(key, value)]) := by
  intro entry inside
  rcases List.mem_append.mp inside with old | new
  · exact h entry old
  · rw [List.mem_singleton.mp new]
    exact own

theorem AllBounded.replace (h : AllBounded entries) (own : Bounded value) :
    AllBounded (replace key value entries) := by
  intro entry inside
  obtain ⟨old, was, rfl⟩ := List.mem_map.mp inside
  obtain ⟨name, other⟩ := old
  dsimp only
  split
  · exact own
  · exact h _ was

theorem AllBounded.lookup (h : AllBounded entries) (found : entries.lookup key = some value) :
    Bounded value := by
  obtain ⟨front, back, rfl, -⟩ := List.lookup_eq_some_iff.mp found
  exact h (key, value) (by simp)

theorem AllBounded.update {dotted : Bool}
    {change : TableKind → List (String × Toml) → Option (List (String × Toml))}
    (keeps : ∀ {kind entries grown}, AllBounded entries → change kind entries = some grown →
      AllBounded grown)
    {path : List String} {kind : TableKind} (h : AllBounded entries)
    (changed : Toml.update dotted change path kind entries = some grown) : AllBounded grown := by
  induction path generalizing kind entries grown with
  | nil => exact keeps h changed
  | cons key path ih =>
    rw [Toml.update] at changed
    split at changed
    · simp only [Option.bind_eq_bind, Option.bind_eq_some_iff, Option.pure_def, Option.some.injEq]
        at changed
      obtain ⟨inner, made, rfl⟩ := changed
      exact h.append (.table _ (ih .nil made))
    · next inner found =>
      split at changed
      · cases changed
      · simp only [Option.bind_eq_bind, Option.bind_eq_some_iff, Option.pure_def,
          Option.some.injEq] at changed
        obtain ⟨after, made, rfl⟩ := changed
        have own : AllBounded inner := by
          cases h.lookup found with
          | table _ own => exact own
        exact h.replace (.table _ (ih own made))
    · next rows found =>
      split at changed
      · cases changed
      · next last ends =>
        simp only [Option.bind_eq_bind, Option.bind_eq_some_iff, Option.pure_def,
          Option.some.injEq] at changed
        obtain ⟨after, made, rfl⟩ := changed
        have own : ∀ row ∈ rows, AllBounded row := by
          cases h.lookup found with
          | tables own => exact own
        refine h.replace (.tables ?_)
        intro row inside
        rcases List.mem_append.mp inside with old | new
        · exact own row (List.dropLast_subset rows old)
        · rw [List.mem_singleton.mp new]
          exact ih (own last (List.mem_of_getLast? ends)) made
    · cases changed

theorem AllBounded.addValue {path : List String} {kind : TableKind} (h : AllBounded entries)
    (own : Bounded value) (added : Toml.addValue path key value kind entries = some grown) :
    AllBounded grown := by
  refine h.update (fun {kind entries grown} h changed => ?_) added
  split at changed
  · cases changed
  · split at changed
    · cases changed
    · cases changed
      exact h.append own

theorem AllBounded.openTable {path : List String} {kind : TableKind} (h : AllBounded entries)
    (opened : Toml.openTable path key kind entries = some grown) : AllBounded grown := by
  refine h.update (fun {kind entries grown} h changed => ?_) opened
  split at changed
  · cases changed
    exact h.append (.table _ AllBounded.nil)
  · next inner found =>
    cases changed
    cases h.lookup found with
    | table _ own => exact h.replace (.table _ own)
  · cases changed

theorem AllBounded.openRow {path : List String} {kind : TableKind} (h : AllBounded entries)
    (opened : Toml.openRow path key kind entries = some grown) : AllBounded grown := by
  refine h.update (fun {kind entries grown} h changed => ?_) opened
  split at changed
  · cases changed
    exact h.append (.tables (by simp))
  · next rows found =>
    cases changed
    cases h.lookup found with
    | tables own =>
      refine h.replace (.tables ?_)
      intro row inside
      rcases List.mem_append.mp inside with old | new
      · exact own row old
      · rw [List.mem_singleton.mp new]
        nofun
  · cases changed

end Tables

/-! ## Values and lines -/

theorem bounded_readItems {readItem : Scan Toml} (read : Bounds readItem) {rounds : Nat}
    {input rest : List Char} {items : List Toml}
    (h : readItems readItem rounds input = some (items, rest)) : ∀ item ∈ items, Bounded item := by
  induction rounds generalizing input items rest with
  | zero => cases h
  | succ rounds ih =>
    simp only [readItems, Option.bind_eq_bind, Option.bind_eq_some_iff] at h
    obtain ⟨start, -, h⟩ := h
    split at h
    · cases h
      nofun
    · simp only [Option.bind_eq_some_iff] at h
      obtain ⟨⟨item, behind⟩, found, next, -, h⟩ := h
      have first := read found
      split at h
      · cases h
        exact List.forall_mem_singleton.mpr first
      · simp only [Option.bind_eq_some_iff, Option.pure_def, Option.some.injEq] at h
        obtain ⟨⟨more, left⟩, later, same⟩ := h
        cases same
        exact List.forall_mem_cons.mpr ⟨first, ih later⟩
      · cases h

theorem allBounded_readEntries {readItem : Scan Toml} (read : Bounds readItem) {rounds : Nat}
    {input rest : List Char} {entries grown : List (String × Toml)} (h : AllBounded entries)
    (found : readEntries readItem rounds entries input = some (grown, rest)) : AllBounded grown := by
  induction rounds generalizing input entries with
  | zero => cases found
  | succ rounds ih =>
    simp only [readEntries, Option.bind_eq_bind, Option.bind_eq_some_iff] at found
    obtain ⟨⟨key, behind⟩, -, after, -, ⟨value, left⟩, valued, more, added, found⟩ := found
    have grows := h.addValue (read valued) added
    split at found
    · exact ih grows found
    · cases found
      exact grows
    · cases found

theorem bounds_readValue (depth : Nat) : Bounds (readValue depth) := by
  induction depth with
  | zero =>
    intro input value rest h
    unfold readValue at h
    split at h
    · cases h
    · cases h
    · exact bounds_readLeaf h
  | succ depth ih =>
    intro input value rest h
    unfold readValue at h
    split at h
    · simp only [Option.bind_eq_bind, Option.bind_eq_some_iff, Option.pure_def, Option.some.injEq]
        at h
      obtain ⟨⟨items, behind⟩, found, same⟩ := h
      cases same
      exact .array (bounded_readItems ih found)
    · split at h
      · cases h
        exact .table _ AllBounded.nil
      · simp only [Option.bind_eq_bind, Option.bind_eq_some_iff, Option.pure_def,
          Option.some.injEq] at h
        obtain ⟨⟨entries, behind⟩, found, same⟩ := h
        cases same
        exact .table _ (allBounded_readEntries ih .nil found)
    · exact bounds_readLeaf h

theorem allBounded_readHeader {sheet after : Sheet} {input rest : List Char}
    (h : AllBounded sheet.entries) (read : readHeader sheet input = some (after, rest)) :
    AllBounded after.entries := by
  unfold readHeader at read
  split at read
  · simp only [Option.bind_eq_bind, Option.bind_eq_some_iff, Option.pure_def, Option.some.injEq]
      at read
    obtain ⟨name, -, mark, -, line, -, left, -, entries, opened, same⟩ := read
    cases same
    exact h.openRow opened
  · simp only [Option.bind_eq_bind, Option.bind_eq_some_iff, Option.pure_def, Option.some.injEq]
      at read
    obtain ⟨name, -, line, -, left, -, entries, opened, same⟩ := read
    cases same
    exact h.openTable opened
  · cases read

theorem allBounded_readAssignment {sheet after : Sheet} {input rest : List Char}
    (h : AllBounded sheet.entries) (read : readAssignment sheet input = some (after, rest)) :
    AllBounded after.entries := by
  simp only [readAssignment, Option.bind_eq_bind, Option.bind_eq_some_iff, Option.pure_def,
    Option.some.injEq] at read
  obtain ⟨name, -, start, -, ⟨value, line⟩, valued, left, -, entries, added, same⟩ := read
  cases same
  exact h.update (fun own changed => own.addValue (bounds_readValue _ valued) changed) added

theorem allBounded_readSheet {rounds : Nat} {sheet last : Sheet} {input : List Char}
    (h : AllBounded sheet.entries) (read : readSheet rounds sheet input = some last) :
    AllBounded last.entries := by
  induction rounds generalizing sheet input with
  | zero => cases read
  | succ rounds ih =>
    rw [readSheet] at read
    split at read
    · cases read
      exact h
    · simp only [Option.bind_eq_bind, Option.bind_eq_some_iff] at read
      obtain ⟨⟨after, rest⟩, opened, read⟩ := read
      exact ih (allBounded_readHeader h opened) read
    · split at read
      · simp only [Option.bind_eq_bind, Option.bind_eq_some_iff] at read
        obtain ⟨rest, -, read⟩ := read
        exact ih h read
      · simp only [Option.bind_eq_bind, Option.bind_eq_some_iff] at read
        obtain ⟨⟨after, rest⟩, added, read⟩ := read
        exact ih (allBounded_readAssignment h added) read

/-- All integers in a file that is read are in range. -/
theorem bounded_read {text : String} {value : Toml} (h : read text = some value) : Bounded value := by
  simp only [read, Option.bind_eq_bind, Option.bind_eq_some_iff, Option.pure_def,
    Option.some.injEq] at h
  obtain ⟨sheet, found, rfl⟩ := h
  exact .table _ (allBounded_readSheet .nil found)

end TraceJournal.Toml
