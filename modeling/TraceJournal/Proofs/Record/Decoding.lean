import TraceJournal.Journal.Checkpoint
import TraceJournal.Proofs.Time.Reading
import TraceJournal.Store.Document

/-!
# Records decoded from their values

A record is decoded from its own value, and from the document that keeps it.
-/

namespace TraceJournal

namespace Decode

/-- A number of 64 bits is decoded from its value in any data format. -/
theorem wordAs_of_shape {α : Type} [HasShape α] (expected : String) {value : α} {n : UInt64}
    (shape : HasShape.shape value = .integer n.toNat) : wordAs expected value = .ok n := by
  have small := n.toNat_lt
  unfold wordAs
  simp only [shape]
  rw [if_pos (by omega), Int.toNat_natCast, UInt64.ofNat_toNat]

theorem word_ofWord (n : UInt64) : word (Json.ofWord n) = .ok n := wordAs_of_shape "u64" rfl

theorem instant_zuluText (t : Instant) : instant (Json.text t.zuluText) = .ok t := by
  simp only [instant, HasShape.shape, Instant.read_zuluText]

/-- A field that is known and that can be decoded. -/
theorem fields_cons {α δ : Type} {slots : List (Slot α δ)} {slot : Slot α δ} {name : String}
    {draft draft' : δ} {value : α} (found : slots.find? (·.name == name) = some slot)
    (decoded : slot.decode draft value = .ok draft') (rest : List (String × α)) :
    fields slots draft ((name, value) :: rest) = fields slots draft' rest := by
  simp only [fields, List.foldlM_cons, found, decoded, bind, Except.bind]

end Decode

namespace Record

theorem toJson_eq (r : Record) :
    r.toJson = .object [("args", .array r.args), ("interface", .text r.interface),
      ("method", .text r.method), ("owner", .text r.owner), ("serial", .ofWord r.serial),
      ("time", .text r.time.zuluText)] :=
  rfl

/-- A record is decoded from its own value. -/
theorem ofJson_toJson (r : Record) : ofJson r.toJson = .ok r := by
  have args : slots.find? (·.name == "args") = slots[4]? := rfl
  have interface : slots.find? (·.name == "interface") = slots[2]? := rfl
  have method : slots.find? (·.name == "method") = slots[3]? := rfl
  have owner : slots.find? (·.name == "owner") = slots[1]? := rfl
  have serial : slots.find? (·.name == "serial") = slots[5]? := rfl
  have time : slots.find? (·.name == "time") = slots[0]? := rfl
  have word (d : Draft) :
      (do return { d with serial := some (← Decode.word (Json.ofWord r.serial)) } :
        Except DecodeError Draft) = .ok { d with serial := some r.serial } := by
    rw [Decode.word_ofWord]
    rfl
  have instant (d : Draft) :
      (do return { d with time := some (← Decode.instant (Json.text r.time.zuluText)) } :
        Except DecodeError Draft) = .ok { d with time := some r.time } := by
    rw [Decode.instant_zuluText]
    rfl
  have decoded : Decode.fields slots Draft.empty [("args", .array r.args),
      ("interface", .text r.interface), ("method", .text r.method), ("owner", .text r.owner),
      ("serial", .ofWord r.serial), ("time", .text r.time.zuluText)] =
        .ok ⟨some r.time, some r.owner, some r.interface, some r.method, some r.args,
          some r.serial⟩ := by
    rw [Decode.fields_cons args rfl, Decode.fields_cons interface rfl,
      Decode.fields_cons method rfl, Decode.fields_cons owner rfl,
      Decode.fields_cons serial (word _), Decode.fields_cons time (instant _)]
    rfl
  rw [toJson_eq]
  simp only [ofJson, Decode.structureOf, HasShape.shape, decoded]
  rfl

end Record

namespace Document

/-- A document keeps a record under any time and serial number, and gives it back with those. -/
theorem toRecord_relabelled (r : Record) (time : Instant) (serial : UInt64) :
    toRecord { ofRecord r with time, serial } = .ok { r with time, serial } := by
  simp only [toRecord, ofRecord, Record.ofJson_toJson]
  rfl

/-- A document gives back the record that it keeps. -/
theorem toRecord_ofRecord (r : Record) : (ofRecord r).toRecord = .ok r :=
  toRecord_relabelled r r.time r.serial

/-- A record is taken out of a document exactly when its body decodes, and of the body all counts
but time and serial number. -/
theorem toRecord_eq_ok_iff {d : Document} {r : Record} :
    d.toRecord = .ok r ↔
      ∃ body, Record.ofJson d.body = .ok body ∧
        r = { body with time := d.time, serial := d.serial } := by
  unfold toRecord
  cases Record.ofJson d.body with
  | error e =>
    constructor
    · intro taken
      cases taken
    · rintro ⟨body, decoded, -⟩
      cases decoded
  | ok body =>
    constructor
    · intro taken
      cases taken
      exact ⟨body, rfl, rfl⟩
    · rintro ⟨body', decoded, rfl⟩
      cases decoded
      rfl

theorem time_toRecord {d : Document} {r : Record} (h : d.toRecord = .ok r) : r.time = d.time := by
  obtain ⟨body, -, rfl⟩ := toRecord_eq_ok_iff.mp h
  rfl

/-- Documents lose nothing of records. A record of any time, texts, arguments and serial number is
kept at its own place, with its time written out in the body, and is given back; relabelled, its
document gives it back with the new label, whatever time stands in the body. A body of any origin
that decodes is taken for everything but time and serial number, so that a checkpoint admits the
record exactly when the document is not before it. -/
theorem keeps_records :
    (∀ r : Record,
      (ofRecord r).position = r.position ∧
        (ofRecord r).body = .object [("args", .array r.args), ("interface", .text r.interface),
          ("method", .text r.method), ("owner", .text r.owner), ("serial", .ofWord r.serial),
          ("time", .text r.time.zuluText)] ∧
        (ofRecord r).toRecord = .ok r ∧
        ∀ time serial, toRecord { ofRecord r with time, serial } = .ok { r with time, serial }) ∧
    ∀ (d : Document) (body : Record), Record.ofJson d.body = .ok body →
      ∃ r, d.toRecord = .ok r ∧ r = ⟨d.time, body.owner, body.interface, body.method, body.args,
          d.serial⟩ ∧
        ∀ c : Checkpoint, c.admits r = true ↔ c.time ≤ d.time := by
  refine ⟨fun r => ⟨rfl, r.toJson_eq, toRecord_ofRecord r, toRecord_relabelled r⟩, ?_⟩
  intro d body decoded
  have taken := toRecord_eq_ok_iff.mpr ⟨body, decoded, rfl⟩
  refine ⟨_, taken, rfl, ?_⟩
  intro c
  rw [Checkpoint.admits, time_toRecord taken]
  exact decide_eq_true_iff

/-- A document of the last second of the year before the year 0, a leap second, whose body tells
another time, with an offset, and neither arguments nor a serial number. -/
theorem keeps_records_foreign_body :
    let t : Instant := ⟨-62167219201, 1999999999, by decide, by decide, by decide, by decide⟩
    let d : Document := ⟨t, 7, .object [("interface", .text "Orders"), ("method", .text "placed"),
      ("owner", .text "shop"), ("time", .text "2024-05-01T12:00:00.5+02:00")]⟩
    d.toRecord = .ok ⟨t, "shop", "Orders", "placed", [], 7⟩ ∧
      ∀ c : Checkpoint, c.admits ⟨t, "shop", "Orders", "placed", [], 7⟩ = true ↔ c.time ≤ t := by
  intro t d
  let told : Instant := ⟨1714557600, 500000000, by decide, by decide, by decide, by decide⟩
  have decoded : Record.ofJson d.body = .ok ⟨told, "shop", "Orders", "placed", [], 0⟩ := by
    decide +kernel
  obtain ⟨r, taken, rfl, admits⟩ := keeps_records.2 d _ decoded
  exact ⟨taken, admits⟩

end Document

end TraceJournal
