import TraceJournal.Proofs.Record.Decoding
import TraceJournal.Proofs.Toml.Range
import TraceJournal.Settings.File

/-!
# Settings decoded from values

Settings are decoded from their own entries, and no number of more than 63 bits is decoded from a
file that was read. Both go field by field through the draft.
-/

namespace TraceJournal

/-! ## What every field keeps -/

namespace Decode

theorem bind_eq_ok_iff {ε α β : Type} {x : Except ε α} {f : α → Except ε β} {y : β} :
    (x >>= f) = .ok y ↔ ∃ a, x = .ok a ∧ f a = .ok y := by
  cases x with
  | error e => simp [bind, Except.bind]
  | ok a => simp [bind, Except.bind]

/-- What every step of a fold keeps is kept by the whole. -/
theorem foldlM_keeps {ε α δ : Type} {step : δ → α → Except ε δ} {keeps : δ → Prop} {parts : List α}
    (each : ∀ part ∈ parts, ∀ {draft after}, keeps draft → step draft part = .ok after → keeps after)
    {start last : δ} (holds : keeps start) (h : parts.foldlM step start = .ok last) : keeps last := by
  induction parts generalizing start with
  | nil =>
    cases h
    exact holds
  | cons part parts ih =>
    obtain ⟨first, later⟩ := List.forall_mem_cons.mp each
    rw [List.foldlM_cons, bind_eq_ok_iff] at h
    obtain ⟨draft, taken, h⟩ := h
    exact ih later (first holds taken) h

variable {α δ : Type}

/-- A field whose values are fair keeps a property of the draft. -/
def Slot.Keeps (fair : α → Prop) (keeps : δ → Prop) (slot : Slot α δ) : Prop :=
  ∀ draft value after, fair value → keeps draft → slot.decode draft value = .ok after →
    keeps after

variable {slots : List (Slot α δ)} {keeps : δ → Prop} {fair : α → Prop} {start last : δ}

theorem fields_keep (all : ∀ slot ∈ slots, slot.Keeps fair keeps) {pairs : List (String × α)}
    (values : ∀ pair ∈ pairs, fair pair.2) (holds : keeps start)
    (decoded : fields slots start pairs = .ok last) : keeps last := by
  refine foldlM_keeps ?_ holds decoded
  rintro ⟨name, value⟩ inside draft after before taken
  dsimp only at taken
  split at taken
  · next slot found =>
    exact all slot (List.mem_of_find?_eq_some found) _ _ _ (values _ inside) before taken
  · cases taken
    exact before

theorem items_keep (all : ∀ slot ∈ slots, slot.Keeps fair keeps) {values : List α}
    (fairs : ∀ value ∈ values, fair value) (holds : keeps start)
    (decoded : items slots start values = .ok last) : keeps last := by
  refine foldlM_keeps ?_ holds decoded
  rintro ⟨slot, value⟩ inside draft after before taken
  obtain ⟨of_slots, of_values⟩ := List.of_mem_zip inside
  exact all slot of_slots _ _ _ (fairs value of_values) before taken

/-- What every field keeps holds of a structure that is decoded without further checks. -/
theorem structureOf_keeps [HasShape α] (all : ∀ slot ∈ slots, slot.Keeps fair keeps) {name : String}
    {value : α} (pairs : ∀ {pairs}, HasShape.shape value = .map pairs → ∀ pair ∈ pairs, fair pair.2)
    (items : ∀ {values}, HasShape.shape value = .sequence values → ∀ value ∈ values, fair value)
    (holds : keeps start) (decoded : structureOf name slots start .ok value = .ok last) :
    keeps last := by
  unfold structureOf at decoded
  split at decoded
  · next shape =>
    rw [bind_eq_ok_iff] at decoded
    obtain ⟨draft, taken, same⟩ := decoded
    cases same
    exact fields_keep all (pairs shape) holds taken
  · next shape =>
    rw [bind_eq_ok_iff] at decoded
    obtain ⟨draft, taken, same⟩ := decoded
    dsimp only at same
    split at same
    · cases same
    · cases same
      exact items_keep all (items shape) holds taken
  · cases decoded

end Decode

/-! ## Numbers of settings -/

namespace Toml

theorem Bounded.pairs {value : Toml} (h : Bounded value) {pairs : List (String × Toml)}
    (shape : HasShape.shape value = .map pairs) : ∀ pair ∈ pairs, Bounded pair.2 := by
  cases h with
  | table _ own =>
    cases shape
    exact own
  | moment =>
    cases shape
    exact AllBounded.nil
  | _ => cases shape

theorem Bounded.items {value : Toml} (h : Bounded value) {items : List Toml}
    (shape : HasShape.shape value = .sequence items) : ∀ item ∈ items, Bounded item := by
  cases h with
  | array own =>
    cases shape
    exact own
  | @tables rows own =>
    cases shape
    intro item inside
    obtain ⟨row, of_rows, rfl⟩ := List.mem_map.mp inside
    exact .table _ (own row of_rows)
  | _ => cases shape

/-- The largest number that is decoded has 63 bits. -/
theorem Bounded.lt_of_wordAs {value : Toml} (h : Bounded value) {expected : String} {n : UInt64}
    (decoded : Decode.wordAs expected value = .ok n) : n.toNat < 0x8000000000000000 := by
  unfold Decode.wordAs at decoded
  split at decoded
  · next i shape =>
    cases h with
    | integer fits =>
      cases shape
      split at decoded
      · next nonneg =>
        cases decoded
        simp only [inRange, Bool.and_eq_true, decide_eq_true_eq] at fits
        rw [UInt64.toNat_ofNat']
        omega
      · cases decoded
    | _ => cases shape
  · cases decoded

end Toml

namespace Decode

/-- A field that is put into the draft when it has been decoded. -/
theorem Slot.Keeps.of_put {α β δ : Type} {fair : α → Prop} {keeps : δ → Prop} {name : String}
    {read : α → Except DecodeError β} {put : δ → β → δ}
    (h : ∀ {draft value x}, fair value → read value = .ok x → keeps draft → keeps (put draft x)) :
    Slot.Keeps fair keeps ⟨name, fun draft value => do return put draft (← read value)⟩ := by
  intro draft value after fair before decoded
  obtain ⟨x, taken, same⟩ := Decode.bind_eq_ok_iff.mp decoded
  cases same
  exact h fair taken before

end Decode

/-- Every number has at most 63 bits. -/
def Small (numbers : List UInt64) : Prop := ∀ n ∈ numbers, n.toNat < 0x8000000000000000

instance (numbers : List UInt64) : Decidable (Small numbers) :=
  List.decidableBAll (fun n : UInt64 => n.toNat < 0x8000000000000000) numbers

/-- A number that is put into a draft, if all other numbers in the draft were there before. -/
theorem Decode.Slot.Keeps.of_number {δ : Type} {numbers : δ → List UInt64} {name expected : String}
    {put : δ → UInt64 → δ} (others : ∀ draft x, numbers (put draft x) ⊆ x :: numbers draft) :
    Slot.Keeps Toml.Bounded (fun s => Small (numbers s))
      ⟨name, fun draft value => do return put draft (← wordAs expected value)⟩ := by
  refine .of_put ?_
  intro draft value x bounded read small n inside
  rcases List.mem_cons.mp (others draft x inside) with rfl | old
  · exact bounded.lt_of_wordAs read
  · exact small n old

/-- The numbers among the settings. -/
def StoreSettings.numbers (s : StoreSettings) : List UInt64 := [s.maxSize, s.connectTimeout]

/-- The numbers among the settings. -/
def ReaderSettings.numbers (s : ReaderSettings) : List UInt64 :=
  [s.pollInterval, s.errorBackoff, s.maxBuffered]

/-- The numbers among the settings. -/
def PipelineSettings.numbers (s : PipelineSettings) : List UInt64 :=
  [s.queueCapacity, s.lossInterval, s.lossThreshold]

/-- The numbers among the settings. -/
def Settings.numbers (s : Settings) : List UInt64 :=
  s.store.numbers ++ s.reader.numbers ++ s.pipeline.numbers

theorem StoreSettings.slots_keep :
    ∀ slot ∈ (slots : List (Decode.Slot Toml StoreSettings)),
      slot.Keeps Toml.Bounded fun s => Small s.numbers := by
  simp only [slots, List.forall_mem_cons]
  refine ⟨.of_put ?_, ?_, .of_put ?_, .of_put ?_, .of_put ?_, .of_put ?_, .of_number ?_,
    .of_number ?_, .of_put ?_, List.forall_mem_nil _⟩
  · exact fun _ _ h => h
  · intro draft value after _ before decoded
    obtain ⟨items, -, decoded⟩ := Decode.bind_eq_ok_iff.mp decoded
    obtain ⟨addresses, -, same⟩ := Decode.bind_eq_ok_iff.mp decoded
    cases same
    exact before
  · exact fun _ _ h => h
  · exact fun _ _ h => h
  · exact fun _ _ h => h
  · exact fun _ _ h => h
  · simp [numbers]
  · simp [numbers]
  · exact fun _ _ h => h

theorem ReaderSettings.slots_keep :
    ∀ slot ∈ (slots : List (Decode.Slot Toml ReaderSettings)),
      slot.Keeps Toml.Bounded fun s => Small s.numbers := by
  simp only [slots, List.forall_mem_cons]
  refine ⟨.of_number ?_, .of_number ?_, .of_number ?_, List.forall_mem_nil _⟩
  all_goals simp [numbers]

theorem PipelineSettings.slots_keep :
    ∀ slot ∈ (slots : List (Decode.Slot Toml PipelineSettings)),
      slot.Keeps Toml.Bounded fun s => Small s.numbers := by
  simp only [slots, List.forall_mem_cons]
  refine ⟨.of_number ?_, .of_number ?_, .of_number ?_, List.forall_mem_nil _⟩
  all_goals simp [numbers]

theorem Settings.slots_keep :
    ∀ slot ∈ (slots : List (Decode.Slot Toml Settings)),
      slot.Keeps Toml.Bounded fun s => Small s.numbers := by
  simp only [slots, List.forall_mem_cons]
  refine ⟨.of_put ?_, .of_put ?_, .of_put ?_, .of_put ?_, .of_put ?_, List.forall_mem_nil _⟩
  · exact fun _ _ h => h
  · exact fun _ _ h => h
  · intro draft value x bounded read h
    have own := Decode.structureOf_keeps StoreSettings.slots_keep bounded.pairs bounded.items
      (by decide) read
    simp only [Small, numbers, List.forall_mem_append] at own h ⊢
    exact ⟨⟨own, h.1.2⟩, h.2⟩
  · intro draft value x bounded read h
    have own := Decode.structureOf_keeps ReaderSettings.slots_keep bounded.pairs bounded.items
      (by decide) read
    simp only [Small, numbers, List.forall_mem_append] at own h ⊢
    exact ⟨⟨h.1.1, own⟩, h.2⟩
  · intro draft value x bounded read h
    have own := Decode.structureOf_keeps PipelineSettings.slots_keep bounded.pairs bounded.items
      (by decide) read
    simp only [Small, numbers, List.forall_mem_append] at own h ⊢
    exact ⟨h.1, own⟩

/-- No number of more than 63 bits is read from a settings file. -/
theorem Settings.small_of_read {text : String} {s : Settings} (accepted : read text = .ok s) :
    Small s.numbers := by
  unfold read at accepted
  split at accepted
  · cases accepted
  · next value found =>
    have bounded := Toml.bounded_read found
    split at accepted
    · next decoded =>
      cases accepted
      have small := Decode.structureOf_keeps slots_keep bounded.pairs bounded.items (by decide)
        decoded
      exact small
    · cases accepted

/-! ## Settings from their own entries -/

namespace Decode

theorem fields_append {α δ : Type} (slots : List (Slot α δ)) (draft : δ)
    (front back : List (String × α)) :
    fields slots draft (front ++ back) =
      (do fields slots (← fields slots draft front) back) :=
  List.foldlM_append

theorem mapM_text (texts : List String) :
    (texts.map Toml.text).mapM text = (.ok texts : Except DecodeError (List String)) := by
  induction texts with
  | nil => rfl
  | cons s texts ih =>
    rw [List.map_cons, List.mapM_cons, ih]
    rfl

end Decode

theorem Decode.word_integer (n : UInt64) : word (Toml.integer n.toNat) = .ok n :=
  wordAs_of_shape "u64" rfl

theorem Decode.count_integer (n : UInt64) : count (Toml.integer n.toNat) = .ok n :=
  wordAs_of_shape "usize" rfl

/-- What can be read is put into the draft. -/
theorem Decode.put_of_ok {β δ : Type} {read : Except DecodeError β} {x : β} (h : read = .ok x)
    (put : β → δ) : (do return put (← read) : Except DecodeError δ) = .ok (put x) := by
  rw [h]
  rfl

namespace StoreSettings

variable (s d : StoreSettings)

theorem fields_location : Decode.fields slots d [("path", Toml.text s.path.text),
    ("addresses", .array (s.addresses.map .text)), ("database", .text s.database),
    ("collection", .text s.collection)] =
      .ok { d with
        path := s.path, addresses := s.addresses, database := s.database
        collection := s.collection } := by
  have path : slots.find? (·.name == "path") = (slots[0]? : Option (Decode.Slot Toml _)) := rfl
  have addresses : slots.find? (·.name == "addresses") =
    (slots[1]? : Option (Decode.Slot Toml _)) := rfl
  have database : slots.find? (·.name == "database") =
    (slots[2]? : Option (Decode.Slot Toml _)) := rfl
  have collection : slots.find? (·.name == "collection") =
    (slots[3]? : Option (Decode.Slot Toml _)) := rfl
  have listed (d : StoreSettings) :
      (do return { d with addresses :=
            ← (← Decode.sequence (Toml.array (s.addresses.map .text))).mapM Decode.text } :
        Except DecodeError StoreSettings) = .ok { d with addresses := s.addresses } :=
    Decode.put_of_ok (Decode.mapM_text s.addresses) _
  rw [Decode.fields_cons path rfl, Decode.fields_cons addresses (listed _),
    Decode.fields_cons database rfl, Decode.fields_cons collection rfl]
  rfl

theorem fields_username (missing : d.username = none) :
    Decode.fields slots d (s.username.map fun name => ("username", Toml.text name)).toList =
      .ok { d with username := s.username } := by
  have username : slots.find? (·.name == "username") =
    (slots[4]? : Option (Decode.Slot Toml _)) := rfl
  cases s.username with
  | none =>
    cases d
    cases missing
    rfl
  | some name => exact Decode.fields_cons username rfl []

theorem fields_password (missing : d.password = none) :
    Decode.fields slots d (s.password.map fun word => ("password", Toml.text word)).toList =
      .ok { d with password := s.password } := by
  have password : slots.find? (·.name == "password") =
    (slots[5]? : Option (Decode.Slot Toml _)) := rfl
  cases s.password with
  | none =>
    cases d
    cases missing
    rfl
  | some word => exact Decode.fields_cons password rfl []

theorem fields_limits : Decode.fields slots d [("max_size_bytes", Toml.integer s.maxSize.toNat),
    ("connect_timeout_ms", .integer s.connectTimeout.toNat),
    ("sync_every_write", .boolean s.syncEveryWrite)] =
      .ok { d with
        maxSize := s.maxSize, connectTimeout := s.connectTimeout
        syncEveryWrite := s.syncEveryWrite } := by
  have max_size : slots.find? (·.name == "max_size_bytes") =
    (slots[6]? : Option (Decode.Slot Toml _)) := rfl
  have connect_timeout : slots.find? (·.name == "connect_timeout_ms") =
    (slots[7]? : Option (Decode.Slot Toml _)) := rfl
  have sync : slots.find? (·.name == "sync_every_write") =
    (slots[8]? : Option (Decode.Slot Toml _)) := rfl
  have size (d : StoreSettings) := Decode.put_of_ok (Decode.word_integer s.maxSize)
    fun n => { d with maxSize := n }
  have timeout (d : StoreSettings) := Decode.put_of_ok (Decode.word_integer s.connectTimeout)
    fun n => { d with connectTimeout := n }
  rw [Decode.fields_cons max_size (size _), Decode.fields_cons connect_timeout (timeout _),
    Decode.fields_cons sync rfl]
  rfl

/-- The settings of a store are decoded from their entries. A name and a password that are missing
there are missing in the standard too. -/
theorem decode_entries : decode (Toml.table .headed s.entries) = .ok s := by
  have fields : Decode.fields slots standard s.entries = .ok s := by
    rw [entries, Decode.fields_append, Decode.fields_append, Decode.fields_append,
      fields_location]
    simp only [bind, Except.bind]
    rw [fields_username _ _ rfl]
    simp only
    rw [fields_password _ _ rfl]
    simp only
    rw [fields_limits]
  simp only [decode, Decode.structureOf, HasShape.shape, fields]
  rfl

end StoreSettings

theorem ReaderSettings.decode_entries (s : ReaderSettings) :
    decode (Toml.table .headed s.entries) = .ok s := by
  have poll : slots.find? (·.name == "poll_interval_ms") =
    (slots[0]? : Option (Decode.Slot Toml _)) := rfl
  have backoff : slots.find? (·.name == "error_backoff_ms") =
    (slots[1]? : Option (Decode.Slot Toml _)) := rfl
  have max_buffered : slots.find? (·.name == "max_buffered") =
    (slots[2]? : Option (Decode.Slot Toml _)) := rfl
  have interval (d : ReaderSettings) := Decode.put_of_ok (Decode.word_integer s.pollInterval)
    fun n => { d with pollInterval := n }
  have rest (d : ReaderSettings) := Decode.put_of_ok (Decode.word_integer s.errorBackoff)
    fun n => { d with errorBackoff := n }
  have bound (d : ReaderSettings) := Decode.put_of_ok (Decode.count_integer s.maxBuffered)
    fun n => { d with maxBuffered := n }
  have fields : Decode.fields slots standard s.entries = .ok s := by
    rw [entries, Decode.fields_cons poll (interval _), Decode.fields_cons backoff (rest _),
      Decode.fields_cons max_buffered (bound _)]
    rfl
  simp only [decode, Decode.structureOf, HasShape.shape, fields]
  rfl

theorem PipelineSettings.decode_entries (s : PipelineSettings) :
    decode (Toml.table .headed s.entries) = .ok s := by
  have capacity : slots.find? (·.name == "queue_capacity") =
    (slots[0]? : Option (Decode.Slot Toml _)) := rfl
  have interval : slots.find? (·.name == "lost_log_interval_ms") =
    (slots[1]? : Option (Decode.Slot Toml _)) := rfl
  have threshold : slots.find? (·.name == "lost_log_threshold") =
    (slots[2]? : Option (Decode.Slot Toml _)) := rfl
  have room (d : PipelineSettings) := Decode.put_of_ok (Decode.count_integer s.queueCapacity)
    fun n => { d with queueCapacity := n }
  have pause (d : PipelineSettings) := Decode.put_of_ok (Decode.word_integer s.lossInterval)
    fun n => { d with lossInterval := n }
  have bound (d : PipelineSettings) := Decode.put_of_ok (Decode.word_integer s.lossThreshold)
    fun n => { d with lossThreshold := n }
  have fields : Decode.fields slots standard s.entries = .ok s := by
    rw [entries, Decode.fields_cons capacity (room _), Decode.fields_cons interval (pause _),
      Decode.fields_cons threshold (bound _)]
    rfl
  simp only [decode, Decode.structureOf, HasShape.shape, fields]
  rfl

/-- Settings are decoded from their entries. -/
theorem Settings.decode_entries (s : Settings) :
    decode (Toml.table .headed s.entries) = .ok s := by
  have read : slots.find? (·.name == "read_enabled") =
    (slots[0]? : Option (Decode.Slot Toml _)) := rfl
  have write : slots.find? (·.name == "write_enabled") =
    (slots[1]? : Option (Decode.Slot Toml _)) := rfl
  have store : slots.find? (·.name == "store") = (slots[2]? : Option (Decode.Slot Toml _)) := rfl
  have reader : slots.find? (·.name == "reader") = (slots[3]? : Option (Decode.Slot Toml _)) := rfl
  have pipeline : slots.find? (·.name == "pipeline") =
    (slots[4]? : Option (Decode.Slot Toml _)) := rfl
  have stored (d : Settings) := Decode.put_of_ok s.store.decode_entries
    fun own => { d with store := own }
  have followed (d : Settings) := Decode.put_of_ok s.reader.decode_entries
    fun own => { d with reader := own }
  have piped (d : Settings) := Decode.put_of_ok s.pipeline.decode_entries
    fun own => { d with pipeline := own }
  have fields : Decode.fields slots standard s.entries = .ok s := by
    rw [entries, Decode.fields_cons read rfl, Decode.fields_cons write rfl,
      Decode.fields_cons store (stored _), Decode.fields_cons reader (followed _),
      Decode.fields_cons pipeline (piped _)]
    rfl
  simp only [decode, Decode.structureOf, HasShape.shape, fields]
  rfl

end TraceJournal
