import TraceJournal.Json.Reader

/-!
# Skipping JSON values

A value that nobody asked for is checked for its form only: the containers in it may be nested to
any depth, its texts may hold any bytes and any code points, and its numbers may have any size.
The open containers are kept in a list, innermost first.

Library serde_json, `ignore_value` of its `Deserializer`.
-/

namespace TraceJournal.Json

/-- An open container. -/
inductive Frame where
  | array
  | object
  deriving DecidableEq, Repr

/-- The byte that closes a container. -/
def Frame.closer : Frame → UInt8
  | .array => code ']'
  | .object => code '\x7d'

/-- A quoted text, after its opening mark. -/
def skipQuoted : Nat → List UInt8 → Except Fault (List UInt8)
  | 0, _ => .error .endOfText
  | _ + 1, [] => .error .endOfText
  | rounds + 1, b :: rest =>
    if b = code '"' then .ok rest
    else if b = code '\\' then
      match rest with
      | [] => .error .endOfText
      | c :: rest =>
        if c = code 'u' then do
          let (_, rest) ← readHex rest
          skipQuoted rounds rest
        else if (escapedByte? c).isSome then skipQuoted rounds rest
        else .error .malformed
    else if b < 32 then .error .malformed
    else skipQuoted rounds rest

/-- At least one digit, and all that follow it. -/
def skipDigits (input : List UInt8) : Except Fault (List UInt8) :=
  if (input.takeWhile isDigit).isEmpty then .error .malformed else .ok (input.dropWhile isDigit)

/-- The exponent of a number, if there is one. -/
def skipExponent : List UInt8 → Except Fault (List UInt8)
  | [] => .ok []
  | b :: rest =>
    if b = code 'e' ∨ b = code 'E' then
      match rest with
      | c :: digits =>
        if c = code '+' ∨ c = code '-' then skipDigits digits else skipDigits (c :: digits)
      | [] => .error .malformed
    else .ok (b :: rest)

/-- The places of a number, if there are any, and its exponent. -/
def skipPlaces : List UInt8 → Except Fault (List UInt8)
  | [] => .ok []
  | b :: rest =>
    if b = code '.' then do skipExponent (← skipDigits rest) else skipExponent (b :: rest)

/-- A number without its sign. -/
def skipUnsigned : List UInt8 → Except Fault (List UInt8)
  | [] => .error .malformed
  | b :: rest =>
    if b = code '0' then
      if (rest.takeWhile isDigit).isEmpty then skipPlaces rest else .error .malformed
    else do skipPlaces (← skipDigits (b :: rest))

/-- A value that is no container, or the opening of one. -/
def skipLeaf (input : List UInt8) : Except Fault (Option Frame × List UInt8) :=
  match skipGaps input with
  | [] => .error .endOfText
  | b :: rest =>
    if b = code '[' then .ok (some .array, rest)
    else if b = code '\x7b' then .ok (some .object, rest)
    else if b = code '"' then do .ok (none, ← skipQuoted (rest.length + 1) rest)
    else if b = code '-' then do .ok (none, ← skipUnsigned rest)
    else if isDigit b then do .ok (none, ← skipUnsigned (b :: rest))
    else do
      let (_, rest) ← readLeafOr (fun _ _ => .error .malformed) (b :: rest)
      .ok (none, rest)

/-- Closes the containers that end here, innermost first; answers those still open, all of which
wait for an item at the start of the text answered. `afterItem` tells that an item stands in
front. -/
def closeFrames (afterItem : Bool) : List Frame → List UInt8 →
    Except Fault (List Frame × List UInt8)
  | [], input => .ok ([], input)
  | frame :: outer, input =>
    match skipGaps input with
    | [] => .error .endOfText
    | b :: rest =>
      if afterItem ∧ b = code ',' then .ok (frame :: outer, rest)
      else if b = frame.closer then closeFrames true outer rest
      else if afterItem then .error .malformed
      else .ok (frame :: outer, b :: rest)

/-- The name of a field and the colon after it. -/
def skipName (input : List UInt8) : Except Fault (List UInt8) :=
  match skipGaps input with
  | [] => .error .endOfText
  | b :: rest => do
    if b ≠ code '"' then .error .malformed
    readColon (← skipQuoted (rest.length + 1) rest)

/-- The rest of the open containers. Every round takes at least one byte. -/
def skipOpen : Nat → List Frame → List UInt8 → Except Fault (List UInt8)
  | 0, _, _ => .error .endOfText
  | rounds + 1, frames, input => do
    let (opened, rest) ← skipLeaf input
    let (frames, rest) ←
      match opened with
      | some frame => closeFrames false (frame :: frames) rest
      | none => closeFrames true frames rest
    match frames with
    | [] => .ok rest
    | .array :: _ => skipOpen rounds frames rest
    | .object :: _ => do skipOpen rounds frames (← skipName rest)

/-- Skips one value. Source: serde_json `ignore_value`. -/
def skipValue (input : List UInt8) : Except Fault (List UInt8) :=
  skipOpen (input.length + 1) [] input

end TraceJournal.Json
