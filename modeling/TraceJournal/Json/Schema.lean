import TraceJournal.Json.Skip

/-!
# Reading structures from JSON text

A structure is read into a draft, field by field. It may be written as an object, whose fields
stand in any order and of which unknown ones are skipped, or as an array of the fields in the
order of the schema. A field that stands twice is `mistyped`, and so is a draft that cannot be
finished.

Library serde_json, as it reads structures whose reading serde derives.
-/

namespace TraceJournal.Json

/-- A field of a structure. -/
structure Field (δ : Type) where
  name : String
  /-- The draft has the field already. -/
  isSet : δ → Bool
  /-- Reads the field; containers may be nested to the given depth. -/
  read : Nat → δ → Reader δ

/-- How a structure is read. -/
structure Schema (δ α : Type) where
  start : δ
  fields : List (Field δ)
  /-- The structure of a draft, if nothing is missing. -/
  finish : δ → Option α

/-- The fault of a value of another kind than the wanted one. The value itself is read first,
unless it is a container. -/
def mistypedValue {α : Type} : Reader α := fun input => do
  let _ ← readLeafOr (fun _ _ => .error .mistyped) input
  .error .mistyped

/-- A text. -/
def readText : Reader String := fun input =>
  match skipGaps input with
  | [] => .error .endOfText
  | b :: rest => if b = code '"' then readQuoted rest else mistypedValue (b :: rest)

/-- A whole number from 0 to below `2 ^ 64`. -/
def readWord : Reader UInt64 := fun input => do
  let (value, rest) ← readLeafOr (fun _ _ => .error .mistyped) input
  match value with
  | number (.integer n _ _) =>
    if 0 ≤ n then .ok (UInt64.ofNat n.toNat, rest) else .error .mistyped
  | _ => .error .mistyped

/-- An array of values. -/
def readArray (depth : Nat) : Reader (List Json) := fun input =>
  match skipGaps input with
  | [] => .error .endOfText
  | b :: rest =>
    if b = code '[' then
      match depth with
      | 0 => .error .malformed
      | depth + 1 => readItems (readValue depth) (rest.length + 1) true rest
    else mistypedValue (b :: rest)

/-- The fields of an object, read after its opening brace or after a field. -/
def readObjectDraft {δ : Type} (fields : List (Field δ)) (depth : Nat) :
    Nat → Bool → δ → Reader δ
  | 0, _, _, _ => .error .endOfText
  | rounds + 1, first, draft, input => do
    let (start, rest) ← nextField first input
    match start with
    | none => .ok (draft, rest)
    | some start =>
      let (name, rest) ← readQuoted start
      match fields.find? (·.name == name) with
      | none => do
        let rest ← skipValue (← readColon rest)
        readObjectDraft fields depth rounds false draft rest
      | some field => do
        if field.isSet draft then .error .mistyped
        let (draft, rest) ← field.read depth draft (← readColon rest)
        readObjectDraft fields depth rounds false draft rest

/-- The fields of an array, read after its opening bracket or after an item, up to its end or to
the last field. -/
def readArrayDraft {δ : Type} (depth : Nat) : List (Field δ) → Bool → δ → Reader δ
  | [], _, draft, input => .ok (draft, input)
  | field :: fields, first, draft, input =>
    match skipGaps input with
    | [] => .error .endOfText
    | b :: rest =>
      if b = code ']' then .ok (draft, b :: rest)
      else do
        let start ←
          if first then .ok (b :: rest)
          else if b = code ',' then
            match skipGaps rest with
            | [] => .error .endOfText
            | c :: rest => if c = code ']' then .error .malformed else .ok (c :: rest)
          else .error .malformed
        let (draft, rest) ← field.read depth draft start
        readArrayDraft depth fields false draft rest

/-- A structure in which at most `depth` containers stand inside each other. Source: serde_json
`deserialize_struct`. -/
def readStructure {δ α : Type} (schema : Schema δ α) (depth : Nat) : Reader α := fun input =>
  let finish (draft : δ) : Except Fault α :=
    match schema.finish draft with
    | some value => .ok value
    | none => .error .mistyped
  match skipGaps input with
  | [] => .error .endOfText
  | b :: rest =>
    if b = code '\x7b' then
      match depth with
      | 0 => .error .malformed
      | depth + 1 => do
        let (draft, rest) ←
          readObjectDraft schema.fields depth (rest.length + 1) true schema.start rest
        .ok (← finish draft, rest)
    else if b = code '[' then
      match depth with
      | 0 => .error .malformed
      | depth + 1 => do
        let (draft, rest) ← readArrayDraft depth schema.fields true schema.start rest
        let value ← finish draft
        match skipGaps rest with
        | [] => .error .endOfText
        | c :: rest => if c = code ']' then .ok (value, rest) else .error .malformed
    else mistypedValue (b :: rest)

end TraceJournal.Json
