import TraceJournal.Json.Token

/-!
# Reading JSON values

The reader of whole values. Containers may be nested up to a given depth; a container below it is
`malformed`. Of several fields with one name the last one counts.

Library serde_json, `from_slice` and its `Deserializer`.
-/

namespace TraceJournal.Json

/-- The items of an array, read after its opening bracket or after an item. Every round takes at
least one byte, so that the length of the text bounds the rounds. -/
def readItems (readItem : Reader Json) : Nat → Bool → Reader (List Json)
  | 0, _, _ => .error .endOfText
  | rounds + 1, first, input =>
    match skipGaps input with
    | [] => .error .endOfText
    | b :: rest =>
      if b = code ']' then .ok ([], rest)
      else do
        let start ←
          if first then .ok (b :: rest)
          else if b = code ',' then
            match skipGaps rest with
            | [] => .error .endOfText
            | c :: rest => if c = code ']' then .error .malformed else .ok (c :: rest)
          else .error .malformed
        let (item, rest) ← readItem start
        let (items, rest) ← readItems readItem rounds false rest
        .ok (item :: items, rest)

/-- The colon after the name of a field. -/
def readColon (input : List UInt8) : Except Fault (List UInt8) :=
  readLiteral [code ':'] (skipGaps input)

/-- The start of the next field: none at the end of the object, else the text after the opening
mark of the field's name. -/
def nextField (first : Bool) (input : List UInt8) :
    Except Fault (Option (List UInt8) × List UInt8) :=
  match skipGaps input with
  | [] => .error .endOfText
  | b :: rest =>
    if b = code '}' then .ok (none, rest)
    else if first then
      if b = code '"' then .ok (some rest, rest) else .error .malformed
    else if b = code ',' then
      match skipGaps rest with
      | [] => .error .endOfText
      | c :: rest => if c = code '"' then .ok (some rest, rest) else .error .malformed
    else .error .malformed

/-- The fields of an object in the order of the text, read after its opening brace or after a
field. -/
def readFields (readItem : Reader Json) : Nat → Bool → Reader (List (String × Json))
  | 0, _, _ => .error .endOfText
  | rounds + 1, first, input => do
    let (start, rest) ← nextField first input
    match start with
    | none => .ok ([], rest)
    | some start =>
      let (name, rest) ← readQuoted start
      let rest ← readColon rest
      let (value, rest) ← readItem rest
      let (fields, rest) ← readFields readItem rounds false rest
      .ok ((name, value) :: fields, rest)

/-- A value that is no container, or what `container` makes of one, given the byte that opens it
and the text after that. -/
def readLeafOr (container : UInt8 → Reader Json) : Reader Json := fun input =>
  match skipGaps input with
  | [] => .error .endOfText
  | b :: rest =>
    if b = code 'n' then do
      .ok (null, ← readLiteral [code 'u', code 'l', code 'l'] rest)
    else if b = code 't' then do
      .ok (boolean true, ← readLiteral [code 'r', code 'u', code 'e'] rest)
    else if b = code 'f' then do
      .ok (boolean false, ← readLiteral [code 'a', code 'l', code 's', code 'e'] rest)
    else if b = code '"' then do
      let (s, rest) ← readQuoted rest
      .ok (Json.text s, rest)
    else if b = code '-' then do
      let (n, rest) ← readUnsigned true rest
      .ok (number n, rest)
    else if isDigit b then do
      let (n, rest) ← readUnsigned false (b :: rest)
      .ok (number n, rest)
    else if b = code '[' ∨ b = code '\x7b' then container b rest
    else .error .malformed

/-- A value in which at most `depth` containers stand inside each other. -/
def readValue : (depth : Nat) → Reader Json
  | 0 => readLeafOr fun _ _ => .error .malformed
  | depth + 1 => readLeafOr fun b rest =>
    if b = code '[' then do
      let (items, rest) ← readItems (readValue depth) (rest.length + 1) true rest
      .ok (array items, rest)
    else do
      let (fields, rest) ← readFields (readValue depth) (rest.length + 1) true rest
      .ok (ofFields fields, rest)

/-- The number of containers that may stand inside each other in a text. Source: serde_json, the
recursion limit of its `Deserializer`. -/
def maxDepth : Nat := 127

/-- What a reader makes of a whole text, of which only blanks may be left. -/
def readWhole {α : Type} (reader : Reader α) (input : List UInt8) : Except Fault α := do
  let (value, rest) ← reader input
  if (skipGaps rest).isEmpty then .ok value else .error .malformed

/-- Reads a value that is the whole of a text. Source: serde_json `from_slice`. -/
def read (input : List UInt8) : Except Fault Json := readWhole (readValue maxDepth) input

end TraceJournal.Json
