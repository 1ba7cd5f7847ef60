import TraceJournal.Proofs.Settings.Decoding
import TraceJournal.Proofs.Toml.Sheet

/-!
# Settings that are written and read again

Settings that were read from a file are written as a file that is read as the same settings, but for
the password. Only a text with too many marks next to each other stands in the way. What is written
and what is shown for diagnostics does not depend on the password.
-/

namespace TraceJournal

namespace Toml

/-- If all parts of a list have a form, so has the list. -/
theorem exists_mapM {α β : Type} {f : α → Option β} {xs : List α}
    (each : ∀ x ∈ xs, ∃ y, f x = some y) : ∃ ys, xs.mapM f = some ys := by
  induction xs with
  | nil => exact ⟨[], rfl⟩
  | cons x xs ih =>
    obtain ⟨⟨y, first⟩, later⟩ := List.forall_mem_cons.mp each
    obtain ⟨ys, others⟩ := ih later
    exact ⟨y :: ys, mapM_cons_eq_some_iff.mpr ⟨y, ys, first, others, rfl⟩⟩

/-- A value has a written form. -/
def HasForm (value : Toml) : Prop := ∃ form, writeValue? value = some form

theorem hasForm_text (s : String) : HasForm (.text s) := ⟨_, rfl⟩

theorem hasForm_boolean (b : Bool) : HasForm (.boolean b) := ⟨_, rfl⟩

theorem hasForm_integer {n : UInt64} (small : n.toNat < 0x8000000000000000) :
    HasForm (.integer n.toNat) := by
  have fits : inRange n.toNat = true := by
    simp only [inRange, Bool.and_eq_true, decide_eq_true_eq]
    omega
  refine ⟨Text.signedDecimal n.toNat, ?_⟩
  rw [writeValue?, writeLeaf?, if_pos fits]
  intro items same
  cases same

theorem hasForm_texts (texts : List String) : HasForm (.array (texts.map .text)) := by
  have each : ∀ item ∈ texts.map Toml.text, ∃ form, writeLeaf? item = some form := by
    intro item inside
    obtain ⟨s, -, rfl⟩ := List.mem_map.mp inside
    exact ⟨_, rfl⟩
  obtain ⟨forms, written⟩ := exists_mapM each
  exact ⟨writeItems forms, by rw [writeValue?, written]; rfl⟩

/-- An entry whose key needs no marks and whose value has a form. -/
theorem HasForm.entry {value : Toml} (h : HasForm value) {key : String} {name : List Char}
    (named : writeKey? key = some name) : ∃ line, writeEntry? (key, value) = some line := by
  obtain ⟨form, formed⟩ := h
  refine ⟨name ++ " = ".toList ++ form ++ ['\n'], ?_⟩
  rw [ writeEntry?, named, formed]
  rfl

theorem exists_writeEntries {entries : List (String × Toml)}
    (each : ∀ entry ∈ entries, ∃ line, writeEntry? entry = some line) :
    ∃ lines, writeEntries? entries = some lines := by
  obtain ⟨lines, written⟩ := exists_mapM each
  exact ⟨lines.flatten, by rw [writeEntries?, written]; rfl⟩

/-- Entries that are numbers of at most 63 bits, under keys that need no marks. -/
theorem exists_writeNumbers {keys : List String} {numbers : List UInt64}
    (named : (keys.all fun key => (writeKey? key).isSome) = true) (small : Small numbers) :
    ∃ lines, writeEntries? ((keys.zip numbers).map fun (key, n) => (key, .integer n.toNat)) =
      some lines := by
  apply exists_writeEntries
  intro entry inside
  obtain ⟨⟨key, n⟩, among, rfl⟩ := List.mem_map.mp inside
  obtain ⟨known, number⟩ := List.of_mem_zip among
  obtain ⟨name, written⟩ := Option.isSome_iff_exists.mp (List.all_eq_true.mp named key known)
  exact (hasForm_integer (small n number)).entry written

theorem exists_writeTable {key : String} {name : List Char} (named : writeKey? key = some name)
    {entries : List (String × Toml)} (written : ∃ lines, writeEntries? entries = some lines) :
    ∃ form, writeTable? (key, entries) = some form := by
  obtain ⟨lines, written⟩ := written
  refine ⟨"\n[".toList ++ name ++ "]\n".toList ++ lines, ?_⟩
  rw [writeTable?, named, written]
  rfl

end Toml

namespace StoreSettings

variable (s : StoreSettings)

/-- The texts among the settings. -/
def texts : List String :=
  s.path.text :: s.addresses ++ [s.database, s.collection] ++ s.username.toList ++
    s.password.toList

theorem exists_writeEntries (small : Small s.numbers) :
    ∃ lines, Toml.writeEntries? s.entries = some lines := by
  simp only [Small, numbers, List.forall_mem_cons] at small
  apply Toml.exists_writeEntries
  simp only [entries, List.forall_mem_append, List.forall_mem_cons]
  refine ⟨⟨⟨⟨(Toml.hasForm_text _).entry rfl, (Toml.hasForm_texts _).entry rfl,
    (Toml.hasForm_text _).entry rfl, (Toml.hasForm_text _).entry rfl, List.forall_mem_nil _⟩,
    ?_⟩, ?_⟩, (Toml.hasForm_integer small.1).entry rfl, (Toml.hasForm_integer small.2.1).entry rfl,
    (Toml.hasForm_boolean _).entry rfl, List.forall_mem_nil _⟩
  · cases s.username with
    | none => exact List.forall_mem_nil _
    | some name => exact List.forall_mem_singleton.mpr ((Toml.hasForm_text name).entry rfl)
  · cases s.password with
    | none => exact List.forall_mem_nil _
    | some word => exact List.forall_mem_singleton.mpr ((Toml.hasForm_text word).entry rfl)

/-- No key is written twice. -/
theorem nodup_entries : (s.entries.map (·.1)).Nodup := by
  have known (key : String) (given : Option String) :
      ((given.map fun s => (key, Toml.text s)).toList.map (·.1)).Sublist [key] := by
    cases given with
    | none => exact List.nil_sublist [key]
    | some s => exact List.Sublist.refl [key]
  have location := List.Sublist.refl ["path", "addresses", "database", "collection"]
  have limits := List.Sublist.refl ["max_size_bytes", "connect_timeout_ms", "sync_every_write"]
  have keys := ((location.append (known "username" s.username)).append
    (known "password" s.password)).append limits
  simp only [entries, List.map_append]
  exact List.Nodup.sublist keys (by decide)

/-- Only the texts among the settings have marks. -/
theorem textsOf_entries : s.entries.flatMap (fun entry => Toml.textsOf entry.2) = s.texts := by
  have addresses : Toml.textsOf (.array (s.addresses.map .text)) = s.addresses := by
    rw [Toml.textsOf, List.flatMap_map]
    exact List.flatMap_singleton' _
  have given (key : String) (text : Option String) :
      (text.map fun s => (key, Toml.text s)).toList.flatMap (fun entry => Toml.textsOf entry.2) =
        text.toList := by
    cases text with
    | none => rfl
    | some s => rfl
  simp only [entries, texts, List.flatMap_append, given, List.flatMap_cons, List.flatMap_nil,
    addresses]
  simp [Toml.textsOf]

end StoreSettings

theorem ReaderSettings.exists_writeEntries (s : ReaderSettings) (small : Small s.numbers) :
    ∃ lines, Toml.writeEntries? s.entries = some lines :=
  have named : (["poll_interval_ms", "error_backoff_ms", "max_buffered"].all fun key =>
      (Toml.writeKey? key).isSome) = true := by decide
  Toml.exists_writeNumbers named small

theorem PipelineSettings.exists_writeEntries (s : PipelineSettings) (small : Small s.numbers) :
    ∃ lines, Toml.writeEntries? s.entries = some lines :=
  have named : (["queue_capacity", "lost_log_interval_ms", "lost_log_threshold"].all fun key =>
      (Toml.writeKey? key).isSome) = true := by decide
  Toml.exists_writeNumbers named small

namespace Settings

variable (s : Settings)

theorem valuesOf_entries : Toml.valuesOf s.entries =
    [("read_enabled", .boolean s.readEnabled), ("write_enabled", .boolean s.writeEnabled)] :=
  rfl

theorem tablesOf_entries : Toml.tablesOf s.entries =
    [("store", s.store.entries), ("reader", s.reader.entries),
      ("pipeline", s.pipeline.entries)] :=
  rfl

/-- Settings without numbers of more than 63 bits have a written form. -/
theorem exists_write? (small : Small s.numbers) :
    ∃ text, Toml.write? s.entries = some text := by
  simp only [Small, numbers, List.forall_mem_append] at small
  have values : ∃ lines, Toml.writeEntries? (Toml.valuesOf s.entries) = some lines := by
    apply Toml.exists_writeEntries
    rw [valuesOf_entries]
    simp only [List.forall_mem_cons]
    exact ⟨(Toml.hasForm_boolean _).entry rfl, (Toml.hasForm_boolean _).entry rfl,
      List.forall_mem_nil _⟩
  have tables : ∃ forms, (Toml.tablesOf s.entries).mapM Toml.writeTable? = some forms := by
    apply Toml.exists_mapM
    rw [tablesOf_entries]
    simp only [List.forall_mem_cons]
    exact ⟨Toml.exists_writeTable rfl (s.store.exists_writeEntries small.1.1),
      Toml.exists_writeTable rfl (s.reader.exists_writeEntries small.1.2),
      Toml.exists_writeTable rfl (s.pipeline.exists_writeEntries small.2), List.forall_mem_nil _⟩
  obtain ⟨lines, valued⟩ := values
  obtain ⟨forms, tabled⟩ := tables
  refine ⟨String.ofList (lines ++ forms.flatten), ?_⟩
  rw [Toml.write?, valued, tabled]
  rfl

/-- What is written of settings is read as the same settings. -/
theorem read_of_write? {text : String} (written : Toml.write? s.entries = some text) :
    read text = .ok s := by
  have inside : ∀ t ∈ Toml.tablesOf s.entries, (t.2.map (·.1)).Nodup := by
    rw [tablesOf_entries]
    simp only [List.forall_mem_cons]
    exact ⟨s.store.nodup_entries,
      (by decide : ["poll_interval_ms", "error_backoff_ms", "max_buffered"].Nodup),
      (by decide : ["queue_capacity", "lost_log_interval_ms", "lost_log_threshold"].Nodup),
      List.forall_mem_nil _⟩
  have distinct : ((Toml.valuesOf s.entries).map (·.1) ++
      (Toml.tablesOf s.entries).map (·.1)).Nodup :=
    (by decide : ["read_enabled", "write_enabled", "store", "reader", "pipeline"].Nodup)
  have found := Toml.read_write? written distinct inside
  have same : Toml.valuesOf s.entries ++ (Toml.tablesOf s.entries).map
      (fun t => (t.1, .table .headed t.2)) = s.entries := rfl
  rw [same] at found
  rw [read, found]
  simp only [decode_entries]

/-- The settings that can be read from a file are those without numbers of more than 63 bits. -/
theorem exists_read_iff : (∃ text, read text = .ok s) ↔ Small s.numbers := by
  constructor
  · rintro ⟨text, accepted⟩
    exact small_of_read accepted
  · intro small
    obtain ⟨text, written⟩ := s.exists_write? small
    exact ⟨text, s.read_of_write? written⟩

/-- All texts that are written are texts of the store. -/
theorem textsOf_written :
    (Toml.valuesOf s.entries ++ (Toml.tablesOf s.entries).flatMap (·.2)).flatMap
      (fun entry => Toml.textsOf entry.2) = s.store.texts := by
  rw [valuesOf_entries, tablesOf_entries]
  simp only [List.flatMap_cons, List.flatMap_nil, List.flatMap_append, s.store.textsOf_entries]
  simp [Toml.textsOf, ReaderSettings.entries, PipelineSettings.entries]

/-- Settings without numbers of more than 63 bits are written, and read back, unless one of their
texts has a long run of marks. -/
theorem write_entries (small : Small s.numbers) :
    if s.store.texts.any Toml.hasLongRun then Toml.write s.entries = .error .longRun
    else ∃ text, Toml.write s.entries = .ok text ∧ read text = .ok s := by
  obtain ⟨text, written⟩ := s.exists_write? small
  have marks := congrArg (·.any Toml.hasLongRun) s.textsOf_written
  rw [List.any_flatMap] at marks
  unfold Toml.write
  simp only [written, marks]
  split
  · rfl
  · exact ⟨text, rfl, s.read_of_write? written⟩

theorem render_of_ok {text : String} (written : Toml.write s.redacted.entries = .ok text) :
    s.render = .ok text := by
  unfold render
  rw [written]

theorem render_of_longRun (failed : Toml.write s.redacted.entries = .error .longRun) :
    s.render = .error .longRun := by
  unfold render
  rw [failed]

/-- Settings that were read from a file are written unless one of their texts, the password apart,
has more than 255 quotation marks or apostrophes next to each other. What is written is read as the
same settings with the password hidden. Neither what is written nor the form for diagnostics
depends on what the password is. -/
theorem reloads {text : String} {c : Settings} (accepted : read text = .ok c) :
    (c.render = .error .longRun ↔ ∃ t ∈ c.redacted.store.texts, Toml.hasLongRun t = true) ∧
      (c.render ≠ .error .longRun → ∃ written, c.render = .ok written ∧
        read written = .ok { c with
          store := { c.store with password := c.store.password.map fun _ => "<redacted>" } }) ∧
      ∀ (d : Settings) (word other : String),
        let guarded (word : String) : Settings :=
          { d with store := { d.store with password := some word } }
        (guarded word).render = (guarded other).render ∧
          (guarded word).debug = (guarded other).debug := by
  have small : Small c.numbers := small_of_read accepted
  have written := c.redacted.write_entries small
  refine ⟨?_, ?_, fun d word other => ⟨rfl, rfl⟩⟩
  · rw [← List.any_eq_true]
    split at written
    · next long => exact iff_of_true (c.render_of_longRun written) long
    · next short =>
      obtain ⟨form, written, -⟩ := written
      refine iff_of_false ?_ short
      rw [c.render_of_ok written]
      intro same
      cases same
  · intro other
    split at written
    · exact absurd (c.render_of_longRun written) other
    · obtain ⟨form, written, again⟩ := written
      exact ⟨form, c.render_of_ok written, again⟩

/-- Settings whose texts need marks of every kind. -/
def marked : Settings :=
  { standard with
    readEnabled := false
    store := { StoreSettings.standard with
      path := ⟨"C:\\traces \"old\"\n'''\x1b"⟩
      addresses := ["it's \"here\"", ""]
      username := some "\t\\"
      password := some "geheim\"\"\"" }
    pipeline := { PipelineSettings.standard with queueCapacity := 9223372036854775807 } }

/-- A file that says so. -/
def markedText : String :=
  "read_enabled = false # who\n" ++
  "[store]\n" ++
  "path = \"C:\\\\traces \\\"old\\\"\\n'''\\u001B\"\n" ++
  "addresses = ['''it's \"here\"''', \"\"]\n" ++
  "username = \"\"\"\t\\\\\"\"\"\n" ++
  "password = 'geheim\"\"\"'\n" ++
  "[pipeline]\n" ++
  "queue_capacity = 0x7fffffffffffffff\n"

/-- Settings whose path is so many quotation marks that they cannot be counted. -/
def uncounted : Settings :=
  { standard with
    store := { StoreSettings.standard with path := ⟨String.ofList (List.replicate 256 '"')⟩ } }

theorem reloads_marked :
    (∃ written, marked.render = .ok written ∧ read written = .ok { marked with
      store := { marked.store with password := some "<redacted>" } }) ∧
    ∃ text, read text = .ok uncounted ∧ uncounted.render = .error .longRun := by
  have accepted : read markedText = .ok marked := by decide +kernel
  obtain ⟨text, long⟩ := uncounted.exists_read_iff.mpr (by decide)
  have run : Toml.hasLongRun (String.ofList (List.replicate 256 '"')) = true := by
    rw [Toml.hasLongRun, String.toList_ofList]
    decide +kernel
  exact ⟨(reloads accepted).2.1 (by decide +kernel),
    text, long, (reloads long).1.mpr ⟨_, List.mem_cons_self, run⟩⟩

end Settings

end TraceJournal
