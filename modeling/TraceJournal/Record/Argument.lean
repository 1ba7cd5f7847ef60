import TraceJournal.Json.Printer

/-!
# Arguments of events

A typed value that an event is reported with, and the JSON value that is kept of it. Whatever has
no JSON form is replaced by a text that tells why, so that reporting an event never fails.

Library tracelog-types, module `record`; the rules are those of serde_json's `to_value`.
-/

namespace TraceJournal

/-- A typed value. -/
inductive Argument where
  /-- No value. -/
  | absent
  /-- A value where there could be none. -/
  | present (value : Argument)
  | truth (value : Bool)
  | character (value : Char)
  | text (value : String)
  /-- An integer of any width. -/
  | integer (value : Int)
  /-- A floating point number; none when it is not finite. -/
  | decimal (value : Option Binary64)
  | bytes (value : List UInt8)
  | sequence (items : List Argument)
  | map (entries : List (Argument × Argument))
  /-- A value with one named field. -/
  | single (field : String) (value : Argument)
  /-- A choice without a value. -/
  | choice (name : String)
  /-- A choice with a value. -/
  | choiceOf (name : String) (value : Argument)
  /-- A value that refuses to be kept. -/
  | refusing (reason : String)

namespace Argument

instance : Inhabited Argument := ⟨absent⟩

/-- Why a value has no JSON form. Source: serde_json `Error`, of `to_value`. -/
inductive Obstacle where
  /-- An integer has more than 64 bits. -/
  | outOfRange
  /-- The key of a map is no text and has no text of its own. -/
  | keyNotText
  /-- The key of a map is a number that is not finite. -/
  | keyNotFinite
  /-- The value itself refuses. -/
  | refused (reason : String)
  deriving DecidableEq

/-- The wording of an obstacle. -/
def Obstacle.message : Obstacle → String
  | .outOfRange => "number out of range"
  | .keyNotText => "key must be a string"
  | .keyNotFinite => "float key must be finite (got NaN or +/-inf)"
  | .refused reason => reason

/-- The name of a field that a key of a map becomes. Source: serde_json `to_value`, the keys of its
maps. -/
def keyText : Argument → Except Obstacle String
  | text s => .ok s
  | character c => .ok (String.singleton c)
  | integer n => .ok (String.ofList (Text.signedDecimal n))
  | decimal (some x) => .ok (String.ofList (Number.text x))
  | decimal none => .error .keyNotFinite
  | truth b => .ok (if b then "true" else "false")
  | choice name => .ok name
  | refusing reason => .error (.refused reason)
  | _ => .error .keyNotText

mutual
/-- The JSON form of a value; the first obstacle counts. Source: serde_json `to_value`. -/
def encode : Argument → Except Obstacle Json
  | absent => .ok .null
  | present value => value.encode
  | truth b => .ok (.boolean b)
  | character c => .ok (.text (String.singleton c))
  | text s => .ok (.text s)
  | integer n =>
    match Json.Number.ofInt? n with
    | some number => .ok (.number number)
    | none => .error .outOfRange
  | decimal (some x) => .ok (.number (.decimal x))
  | decimal none => .ok .null
  | bytes values => .ok (.array (values.map fun b => .ofNat b.toNat))
  | sequence items => do return .array (← encodeItems items)
  | map entries => do return .ofFields (← encodeEntries entries)
  | single field value => do return .object [(field, ← value.encode)]
  | choice name => .ok (.text name)
  | choiceOf name value => do return .object [(name, ← value.encode)]
  | refusing reason => .error (.refused reason)

/-- The JSON forms of a list of values. -/
def encodeItems : List Argument → Except Obstacle (List Json)
  | [] => .ok []
  | item :: rest => do return (← item.encode) :: (← encodeItems rest)

/-- The fields that the entries of a map become. -/
def encodeEntries : List (Argument × Argument) → Except Obstacle (List (String × Json))
  | [] => .ok []
  | (key, value) :: rest => do
    let name ← key.keyText
    return (name, ← value.encode) :: (← encodeEntries rest)
end

/-- What is kept of a value: its JSON form, or a text that names the obstacle. Source:
tracelog-types `to_arg`. -/
def kept (a : Argument) : Json :=
  match a.encode with
  | .ok value => value
  | .error obstacle => .text ("<unserializable: " ++ obstacle.message ++ ">")

end Argument

end TraceJournal
