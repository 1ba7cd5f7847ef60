import TraceJournal.Json.Printer
import TraceJournal.Text.Quoted
import TraceJournal.Time.Reader

/-!
# Decoding structures from values

A value of a data format is looked at one level at a time, as a `Shape`. A structure is decoded
into a draft: from a map, whose fields are taken in their order and of which unknown ones are
ignored, or from a sequence of the fields in the order of the structure. The first fault counts.

The rules are those of structures whose reading serde derives.
-/

namespace TraceJournal

/-- The outermost level of a value whose parts are of type `α`. -/
inductive Shape (α : Type) where
  | null
  | boolean (value : Bool)
  | integer (value : Int)
  | decimal (value : Binary64)
  | text (value : String)
  | sequence (items : List α)
  | map (fields : List (String × α))

/-- Values that can be looked at one level at a time. -/
class HasShape (α : Type) where
  shape : α → Shape α
  /-- A sequence that is longer than the structure decoded from it is refused. -/
  refusesExtraItems : Bool

instance : HasShape Json where
  shape
    | .null => .null
    | .boolean b => .boolean b
    | .number (.integer n _ _) => .integer n
    | .number (.decimal x) => .decimal x
    | .text s => .text s
    | .array items => .sequence items
    | .object fields => .map fields
  refusesExtraItems := true

/-- A value in the words of a message. -/
def Shape.describe {α : Type} : Shape α → String
  | .null => "null"
  | .boolean b => "boolean `" ++ (if b then "true" else "false") ++ "`"
  | .integer n => "integer `" ++ String.ofList (Text.signedDecimal n) ++ "`"
  | .decimal x => "floating point `" ++ String.ofList (Number.text x) ++ "`"
  | .text s => "string " ++ Text.quoted s
  | .sequence _ => "sequence"
  | .map _ => "map"

/-- Why a value is not what it should be. Source: serde `de.Error`. -/
inductive DecodeError where
  /-- A value of another type. -/
  | wrongType (found expected : String)
  /-- A value of the right type that is out of range. -/
  | wrongValue (found expected : String)
  /-- A sequence with too few or too many items. -/
  | wrongLength (length : Nat) (expected : String)
  /-- A field that has to be there. -/
  | missing (field : String)
  /-- A text that is no instant. -/
  | notAnInstant (error : Time.ReadError)
  deriving DecidableEq

/-- The wording of a decode error. -/
def DecodeError.message : DecodeError → String
  | .wrongType found expected => "invalid type: " ++ found ++ ", expected " ++ expected
  | .wrongValue found expected => "invalid value: " ++ found ++ ", expected " ++ expected
  | .wrongLength length expected =>
    "invalid length " ++ String.ofList (Text.decimal length) ++ ", expected " ++ expected
  | .missing field => "missing field `" ++ field ++ "`"
  | .notAnInstant error => error.message

namespace Decode

variable {α : Type} [HasShape α]

/-- A value of another type than the expected one. -/
def refuse {β : Type} (expected : String) (value : α) : Except DecodeError β :=
  .error (.wrongType (HasShape.shape value).describe expected)

/-- A truth value. -/
def boolean (value : α) : Except DecodeError Bool :=
  match HasShape.shape value with
  | .boolean b => .ok b
  | _ => refuse "a boolean" value

/-- A text, described as `expected`. -/
def textAs (expected : String) (value : α) : Except DecodeError String :=
  match HasShape.shape value with
  | .text s => .ok s
  | _ => refuse expected value

/-- A text. -/
def text (value : α) : Except DecodeError String := textAs "a string" value

/-- A text, or nothing. -/
def optionalText (value : α) : Except DecodeError (Option String) :=
  match HasShape.shape value with
  | .null => .ok none
  | _ => some <$> text value

/-- A whole number from 0 to below `2 ^ 64`, described as `expected`. -/
def wordAs (expected : String) (value : α) : Except DecodeError UInt64 :=
  match HasShape.shape value with
  | .integer n =>
    if 0 ≤ n ∧ n < 0x10000000000000000 then .ok (UInt64.ofNat n.toNat)
    else .error (.wrongValue (HasShape.shape value).describe expected)
  | _ => refuse expected value

/-- A whole number from 0 to below `2 ^ 64`. -/
def word (value : α) : Except DecodeError UInt64 := wordAs "u64" value

/-- A count. -/
def count (value : α) : Except DecodeError UInt64 := wordAs "usize" value

/-- The items of a sequence. -/
def sequence (value : α) : Except DecodeError (List α) :=
  match HasShape.shape value with
  | .sequence items => .ok items
  | _ => refuse "a sequence" value

/-- An instant in any of the forms that stored traces may have. Source: chrono `DateTime`, as serde
reads it. -/
def instant (value : α) : Except DecodeError Instant :=
  match HasShape.shape value with
  | .text s =>
    match Instant.read s with
    | .ok t => .ok t
    | .error e => .error (.notAnInstant e)
  | _ => refuse "an RFC 3339 formatted date and time string" value

/-- A field of a structure that is decoded into a draft of type `δ`. -/
structure Slot (α δ : Type) where
  name : String
  decode : δ → α → Except DecodeError δ

/-- Decodes the fields of a map in their order. Source: serde `Visitor.visit_map`. -/
def fields {δ : Type} (slots : List (Slot α δ)) (start : δ) (fields : List (String × α)) :
    Except DecodeError δ :=
  fields.foldlM (fun draft (name, value) =>
    match slots.find? (·.name == name) with
    | some slot => slot.decode draft value
    | none => .ok draft) start

/-- Decodes the items of a sequence, as far as there are slots. Source: serde
`Visitor.visit_seq`. -/
def items {δ : Type} (slots : List (Slot α δ)) (start : δ) (items : List α) :
    Except DecodeError δ :=
  (slots.zip items).foldlM (fun draft (slot, value) => slot.decode draft value) start

/-- A structure. `finish` answers the structure of a draft, or the first field that is missing. -/
def structureOf {δ β : Type} (name : String) (slots : List (Slot α δ)) (start : δ)
    (finish : δ → Except String β) (value : α) : Except DecodeError β := do
  match HasShape.shape value with
  | .map pairs =>
    match finish (← fields slots start pairs) with
    | .ok result => .ok result
    | .error field => .error (.missing field)
  | .sequence values =>
    match finish (← items slots start values) with
    | .ok result =>
      if slots.length < values.length && HasShape.refusesExtraItems α then
        .error (.wrongLength values.length "fewer elements in array")
      else .ok result
    | .error _ =>
      .error (.wrongLength values.length (name ++ " with " ++
        String.ofList (Text.decimal slots.length) ++ " elements"))
  | _ => refuse name value

end Decode

end TraceJournal
