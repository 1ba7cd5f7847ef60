import TraceJournal.Toml.Token

/-!
# Reading TOML

A file is a sequence of lines: headers, which open tables, and keys with values, which go into the
table opened last. A key can be dotted and then leads through further tables.

Library toml, `from_str`.
-/

namespace TraceJournal.Toml

/-- How many parts a key can have at most, and how many arrays and tables written as values can
stand inside each other. -/
def maxDepth : Nat := 79

/-- One part of a key. -/
def readKeyPart : Scan String := fun input =>
  match input with
  | '"' :: rest => do
    let (chars, rest) ← readBasic (rest.length + 1) rest
    return (String.ofList chars, rest)
  | '\'' :: rest => do
    let (chars, rest) ← readLiteral rest
    return (String.ofList chars, rest)
  | _ =>
    let chars := input.takeWhile isKeyChar
    if chars.isEmpty then none else some (String.ofList chars, input.dropWhile isKeyChar)

/-- The parts of a key. Every round takes at least one character. -/
def readKeyParts : Nat → Scan (List String)
  | 0, _ => none
  | rounds + 1, input => do
    let (part, rest) ← readKeyPart (skipGaps input)
    match skipGaps rest with
    | '.' :: rest =>
      let (more, rest) ← readKeyParts rounds rest
      return (part :: more, rest)
    | rest => return ([part], rest)

/-- A key: the parts on the way and the last one. -/
def readKey : Scan (List String × String) := fun input => do
  let (parts, rest) ← readKeyParts (input.length + 1) input
  let last ← parts.getLast?
  if parts.length ≤ maxDepth then some ((parts.dropLast, last), rest) else none

/-- The items of an array, read after its opening bracket or after a comma. -/
def readItems (readItem : Scan Toml) : Nat → Scan (List Toml)
  | 0, _ => none
  | rounds + 1, input => do
    match ← skipLines (input.length + 1) input with
    | ']' :: rest => return ([], rest)
    | input =>
      let (item, rest) ← readItem input
      match ← skipLines (rest.length + 1) rest with
      | ']' :: rest => return ([item], rest)
      | ',' :: rest =>
        let (more, rest) ← readItems readItem rounds rest
        return (item :: more, rest)
      | _ => none

/-- The entries of a table that is written as a value, read after its opening brace or after a
comma, added to those before. -/
def readEntries (readItem : Scan Toml) : Nat → List (String × Toml) → Scan (List (String × Toml))
  | 0, _, _ => none
  | rounds + 1, entries, input => do
    let ((path, key), rest) ← readKey input
    let (value, rest) ← readItem (skipGaps (← expect '=' rest))
    let entries ← addValue path key value .inline entries
    match skipGaps rest with
    | ',' :: rest => readEntries readItem rounds entries rest
    | '\x7d' :: rest => return (entries, rest)
    | _ => none

/-- A value that is neither an array nor a table. -/
def readLeaf : Scan Toml := fun input =>
  match input with
  | '"' :: _ | '\'' :: _ => do
    let (s, rest) ← readText input
    return (text s, rest)
  | 't' :: 'r' :: 'u' :: 'e' :: rest => some (boolean true, rest)
  | 'f' :: 'a' :: 'l' :: 's' :: 'e' :: rest => some (boolean false, rest)
  | _ => readNumber input

/-- A value in which at most `depth` arrays and tables stand inside each other. -/
def readValue : (depth : Nat) → Scan Toml
  | 0, input =>
    match input with
    | '[' :: _ | '\x7b' :: _ => none
    | _ => readLeaf input
  | depth + 1, input =>
    match input with
    | '[' :: rest => do
      let (items, rest) ← readItems (readValue depth) (rest.length + 1) rest
      return (array items, rest)
    | '\x7b' :: rest => do
      match skipGaps rest with
      | '\x7d' :: rest => return (table .inline [], rest)
      | rest =>
        let (entries, rest) ← readEntries (readValue depth) (rest.length + 1) [] rest
        return (table .inline entries, rest)
    | _ => readLeaf input

/-- What has been read of a file: its entries, and the path of the table opened last. -/
structure Sheet where
  entries : List (String × Toml)
  current : List String

/-- A line with a header. -/
def readHeader (sheet : Sheet) (input : List Char) : Option (Sheet × List Char) := do
  match input with
  | '[' :: '[' :: rest =>
    let ((path, key), rest) ← readKey rest
    let rest ← finishLine (← expect ']' (← expect ']' rest))
    return (⟨← openRow path key .headed sheet.entries, path ++ [key]⟩, rest)
  | '[' :: rest =>
    let ((path, key), rest) ← readKey rest
    let rest ← finishLine (← expect ']' rest)
    return (⟨← openTable path key .headed sheet.entries, path ++ [key]⟩, rest)
  | _ => none

/-- A line with a key and a value. -/
def readAssignment (sheet : Sheet) (input : List Char) : Option (Sheet × List Char) := do
  let ((path, key), rest) ← readKey input
  let (value, rest) ← readValue maxDepth (skipGaps (← expect '=' rest))
  let rest ← finishLine rest
  let entries ← update false (addValue path key value) sheet.current .headed sheet.entries
  return ({ sheet with entries }, rest)

/-- The lines of a file. Every round takes at least one character. -/
def readSheet : Nat → Sheet → List Char → Option Sheet
  | 0, _, _ => none
  | rounds + 1, sheet, input =>
    match skipGaps input with
    | [] => some sheet
    | '[' :: rest => do
      let (sheet, rest) ← readHeader sheet ('[' :: rest)
      readSheet rounds sheet rest
    | c :: rest =>
      if c = '#' ∨ c = '\n' ∨ c = '\r' then do readSheet rounds sheet (← finishLine (c :: rest))
      else do
        let (sheet, rest) ← readAssignment sheet (c :: rest)
        readSheet rounds sheet rest

/-- Reads the table of a whole file. A byte order mark in front is passed over. Source: toml
`from_str`. -/
def read (s : String) : Option Toml := do
  let input :=
    match s.toList with
    | '\ufeff' :: rest => rest
    | input => input
  let sheet ← readSheet (input.length + 1) ⟨[], []⟩ input
  return table .headed sheet.entries

end TraceJournal.Toml
