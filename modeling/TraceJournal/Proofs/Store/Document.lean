import TraceJournal.Proofs.Json.Kept
import TraceJournal.Proofs.Json.Past
import TraceJournal.Proofs.Time.Reading
import TraceJournal.Store.Document

/-!
# Reading written documents

A document is read from its own text field by field: the time and the serial number are read back,
and the body is what it becomes when it is read with one container around it.
-/

namespace TraceJournal

namespace Json

open TraceJournal.Text

section Draft

variable {δ : Type} {fields : List (Field δ)} {field : Field δ} {name : String}

/-- What reading comes to after the start of a field is found. -/
private theorem readObjectDraft_found (found : fields.find? (·.name == name) = some field)
    {draft : δ} (missing : field.isSet draft = false) (depth rounds : Nat) {first : Bool}
    {input more : List UInt8}
    (start : nextField first input =
      .ok (some (bytesOf (name.toList.flatMap escapeChar) ++ code '"' :: code ':' :: more),
        bytesOf (name.toList.flatMap escapeChar) ++ code '"' :: code ':' :: more)) :
    readObjectDraft fields depth (rounds + 1) first draft input =
      (do
        let (draft, rest) ← field.read depth draft more
        readObjectDraft fields depth rounds false draft rest) := by
  have colon : readColon (code ':' :: more) = .ok more := rfl
  simp only [readObjectDraft, start, bind, Except.bind, readQuoted_escaped, found, missing, colon,
    Bool.false_eq_true, if_false]

/-- The first field of a structure. -/
theorem readObjectDraft_first (found : fields.find? (·.name == name) = some field) (draft : δ)
    (missing : field.isSet draft = false) (depth rounds : Nat) (more : List UInt8) :
    readObjectDraft fields depth (rounds + 1) true draft
        (bytesOf (quotedChars name) ++ code ':' :: more) =
      (do
        let (draft, rest) ← field.read depth draft more
        readObjectDraft fields depth rounds false draft rest) := by
  rw [bytesOf_quotedChars]
  exact readObjectDraft_found found missing depth rounds rfl

/-- A field of a structure after another one. -/
theorem readObjectDraft_next (found : fields.find? (·.name == name) = some field) (draft : δ)
    (missing : field.isSet draft = false) (depth rounds : Nat) (more : List UInt8) :
    readObjectDraft fields depth (rounds + 1) false draft
        (code ',' :: (bytesOf (quotedChars name) ++ code ':' :: more)) =
      (do
        let (draft, rest) ← field.read depth draft more
        readObjectDraft fields depth rounds false draft rest) := by
  rw [bytesOf_quotedChars]
  exact readObjectDraft_found found missing depth rounds rfl

end Draft

theorem readText_quoted (s : String) (rest : List UInt8) :
    readText (bytesOf (quotedChars s) ++ rest) = .ok (s, rest) := by
  have text (input : List UInt8) : readText (code '"' :: input) = readQuoted input := rfl
  rw [bytesOf_quotedChars, text, readQuoted_escaped]

/-- A serial number is read back. -/
theorem readWord_ofWord (n : UInt64) {rest : List UInt8} (ends : EndsNumber rest) :
    readWord (bytesOf (ofWord n).chars ++ rest) = .ok (n, rest) := by
  have small := n.toNat_lt
  have least : -0x8000000000000000 ≤ (n.toNat : Int) := by omega
  have most : (n.toNat : Int) < 0x10000000000000000 := by omega
  have nonneg : (0 : Int) ≤ n.toNat := Int.natCast_nonneg _
  have chars_eq : (ofWord n).chars = signedDecimal n.toNat := rfl
  unfold readWord
  rw [chars_eq, readLeafOr_integer least most ends]
  simp only [bind, Except.bind, if_pos nonneg, Int.toNat_natCast, UInt64.ofNat_toNat]

end Json

namespace Record

open TraceJournal.Text

/-- A time is read back. -/
theorem readInstant_zuluText (t : Instant) (rest : List UInt8) :
    readInstant (bytesOf (Json.quotedChars t.zuluText) ++ rest) = .ok (t, rest) := by
  unfold readInstant
  rw [Json.readText_quoted]
  simp only [bind, Except.bind, Instant.read_zuluText]

theorem leaves_readInstant (input : List UInt8) :
    Json.Leaves Prod.snd input (readInstant input) := by
  unfold readInstant
  refine .bind (Json.leaves_readText input) fun (s, rest) => ?_
  dsimp only
  split
  · exact .ok (.here rest)
  · exact .error _

theorem leaves_textField {δ β : Type} {name : String} {isSet : δ → Bool}
    {reader : Nat → Json.Reader β} {keep : δ → β → δ}
    (leaves : ∀ depth input, Json.Leaves Prod.snd input (reader depth input)) (depth : Nat)
    (draft : δ) (input : List UInt8) :
    Json.Leaves Prod.snd input ((textField name isSet reader keep).read depth draft input) :=
  .bind (leaves depth input) fun (_, rest) => .ok (.here rest)

end Record

namespace Document

open TraceJournal.Text

/-- The bytes of the three fields of a document, and of the end of the object. -/
def fieldBytes (d : Document) : List UInt8 :=
  bytesOf (Json.quotedChars "time") ++ Json.code ':' ::
    (bytesOf (Json.quotedChars d.time.zuluText) ++ Json.code ',' ::
      (bytesOf (Json.quotedChars "serial") ++ Json.code ':' ::
        (bytesOf (Json.ofWord d.serial).chars ++ Json.code ',' ::
          (bytesOf (Json.quotedChars "body") ++ Json.code ':' ::
            (bytesOf d.body.chars ++ [Json.code '\x7d'])))))

theorem toBytes_render (d : Document) : toBytes d.render = Json.code '\x7b' :: d.fieldBytes := by
  have colon : ':'.toNat < 128 := by decide
  have comma : ','.toNat < 128 := by decide
  have brace : '\x7b'.toNat < 128 := by decide
  have brace' : '\x7d'.toNat < 128 := by decide
  rw [render, Json.render, toBytes_ofList]
  simp only [fieldBytes, fields, Json.chars, Json.moreFieldChars, bytesOf_append,
    bytesOf_ascii_cons colon, bytesOf_ascii_cons comma, bytesOf_ascii_cons brace,
    bytesOf_ascii_cons brace', bytesOf_nil, List.append_assoc, List.cons_append]

/-! ## Field by field -/

theorem read_time (d : Document) (rounds : Nat) (more : List UInt8) :
    Json.readObjectDraft schema.fields 126 (rounds + 1) true Draft.empty
        (bytesOf (Json.quotedChars "time") ++ Json.code ':' ::
          (bytesOf (Json.quotedChars d.time.zuluText) ++ more)) =
      Json.readObjectDraft schema.fields 126 rounds false ⟨some d.time, none, none⟩ more := by
  have found : schema.fields.find? (·.name == "time") = schema.fields[0]? := rfl
  rw [Json.readObjectDraft_first found Draft.empty rfl]
  simp only [schema, Record.textField, Record.readInstant_zuluText, bind, Except.bind]
  rfl

theorem read_serial (d : Document) (rounds : Nat) {more : List UInt8}
    (ends : Json.EndsNumber more) :
    Json.readObjectDraft schema.fields 126 (rounds + 1) false ⟨some d.time, none, none⟩
        (Json.code ',' :: (bytesOf (Json.quotedChars "serial") ++ Json.code ':' ::
          (bytesOf (Json.ofWord d.serial).chars ++ more))) =
      Json.readObjectDraft schema.fields 126 rounds false ⟨some d.time, some d.serial, none⟩
        more := by
  have found : schema.fields.find? (·.name == "serial") = schema.fields[1]? := rfl
  rw [Json.readObjectDraft_next found _ rfl]
  simp only [schema, Record.textField, Json.readWord_ofWord d.serial ends, bind, Except.bind]

theorem read_body (d : Document) (rounds : Nat) (more : List UInt8) :
    Json.readObjectDraft schema.fields 126 (rounds + 1) false ⟨some d.time, some d.serial, none⟩
        (Json.code ',' :: (bytesOf (Json.quotedChars "body") ++ Json.code ':' :: more)) =
      (do
        let (body, rest) ← Json.readValue 126 more
        Json.readObjectDraft schema.fields 126 rounds false
          ⟨some d.time, some d.serial, some body⟩ rest) := by
  have found : schema.fields.find? (·.name == "body") = schema.fields[2]? := rfl
  rw [Json.readObjectDraft_next found _ rfl]
  simp only [schema, Record.textField]
  cases Json.readValue 126 more <;> rfl

/-- The fields of a document are read with what its body becomes. -/
theorem readObjectDraft_fieldBytes (d : Document) (rounds : Nat) :
    (Json.readObjectDraft schema.fields 126 (rounds + 4) true Draft.empty d.fieldBytes).toOption =
      (d.body.reread 126).map fun body => (⟨some d.time, some d.serial, some body⟩, []) := by
  have comma (more : List UInt8) : Json.EndsNumber (Json.code ',' :: more) :=
    .cons (by decide) more
  have brace : Json.EndsNumber [Json.code '\x7d'] := .cons (by decide) []
  have value := Json.readValue_chars d.body 126 _ brace
  have last (draft : Draft) : Json.readObjectDraft schema.fields 126 (rounds + 1) false draft
      [Json.code '\x7d'] = .ok (draft, []) := rfl
  rw [fieldBytes, read_time, read_serial d _ (comma _), read_body, Json.toOption_bind value]
  cases d.body.reread 126 with
  | none => rfl
  | some body =>
    simp only [Option.bind_some, last]
    rfl

/-- A document is read from its own text with what its body becomes, if that becomes anything. -/
theorem read_render (d : Document) :
    (read (toBytes d.render)).toOption =
      (d.body.reread 126).map fun body => { d with body } := by
  have brace :
      Json.skipGaps (Json.code '\x7b' :: d.fieldBytes) = Json.code '\x7b' :: d.fieldBytes :=
    Json.skipGaps_cons rfl _
  have start : schema.start = Draft.empty := rfl
  have long : ∃ rounds, d.fieldBytes.length + 1 = rounds + 4 := by
    refine ⟨d.fieldBytes.length - 3, ?_⟩
    simp only [fieldBytes, List.length_append, List.length_cons]
    omega
  obtain ⟨rounds, enough⟩ := long
  have fields := readObjectDraft_fieldBytes d rounds
  rw [toBytes_render]
  unfold read Json.readWhole Json.readStructure Json.maxDepth
  simp only [brace, if_true, start, enough]
  rw [bind_assoc, Json.toOption_bind fields]
  cases d.body.reread 126 <;> rfl

/-! ## Bytes of documents -/

/-- A document is read from no bytes of which one is below a tabulator. -/
theorem le_of_read {input : List UInt8} {d : Document} (h : read input = .ok d) :
    ∀ b ∈ input, 9 ≤ b := by
  refine Json.le_of_readWhole (Json.leaves_readStructure (fun f hf => ?_) Json.maxDepth input) h
  simp only [schema, List.mem_cons, List.not_mem_nil, or_false] at hf
  rcases hf with rfl | rfl | rfl
  · exact Record.leaves_textField fun _ => Record.leaves_readInstant
  · exact Record.leaves_textField fun _ => Json.leaves_readWord
  · exact Record.leaves_textField Json.leaves_readValue

end Document

end TraceJournal
