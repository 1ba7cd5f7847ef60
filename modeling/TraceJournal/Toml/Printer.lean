import TraceJournal.Toml.Token

/-!
# Writing TOML

A text is written in the first of several styles that shows it as it is, and with escapes only if
there is no such style. The values of a sheet come first, then its tables, each under a header.

Library toml, `to_string_pretty`.
-/

namespace TraceJournal.Toml

/-- How a text is written. -/
inductive TextStyle where
  /-- Between quotation marks, on one line. -/
  | basic
  /-- Between apostrophes, on one line. -/
  | literal
  /-- Between three quotation marks. -/
  | basicLines
  /-- Between three apostrophes. -/
  | literalLines
  deriving DecidableEq, Repr

/-- The mark at both ends of a text. -/
def TextStyle.mark : TextStyle → List Char
  | .basic => ['"']
  | .literal => ['\'']
  | .basicLines => ['"', '"', '"']
  | .literalLines => ['\'', '\'', '\'']

/-- A control character other than the tab and the line feed; it is always written as an escape. -/
def isControl (c : Char) : Bool := (c.toNat < 32 && c != '\t' && c != '\n') || c.toNat == 127

/-- A text stands somewhere in another one. -/
def occursIn (part : List Char) : List Char → Bool
  | [] => part.isEmpty
  | c :: rest => part.isPrefixOf (c :: rest) || occursIn part rest

/-- So many of a mark stand next to each other. -/
def hasRun (mark : Char) (length : Nat) (s : List Char) : Bool :=
  occursIn (List.replicate length mark) s

/-- The style that shows a text as it is, if there is one: on one line rather than on several, and
between quotation marks rather than between apostrophes. A tab stands in the way of none, though it
is an escape between quotation marks. -/
def TextStyle.plain? (s : List Char) : Option TextStyle :=
  let lines := s.contains '\n'
  if s.any isControl then none
  else if !s.contains '\\' && !s.contains '"' && !lines then some .basic
  else if !s.contains '\'' && !lines then some .literal
  else if !s.contains '\\' && !hasRun '"' 3 s then some .basicLines
  else if !hasRun '\'' 3 s then some .literalLines
  else none

/-- The style in which a text is written. -/
def TextStyle.of (s : List Char) : TextStyle :=
  (plain? s).getD (if s.contains '\n' then .basicLines else .basic)

/-- A hexadecimal digit in upper case. -/
def hexDigit (n : Nat) : Char := if n < 10 then Char.ofNat (48 + n) else Char.ofNat (55 + n)

/-- A character other than the quotation mark between quotation marks; line feeds are kept if the
text is on several lines. -/
def writeChar (lines : Bool) (c : Char) : List Char :=
  if c = '\n' then if lines then ['\n'] else ['\\', 'n']
  else if c = '\\' then ['\\', '\\']
  else if c = '\x08' then ['\\', 'b']
  else if c = '\t' then ['\\', 't']
  else if c = '\x0c' then ['\\', 'f']
  else if c = '\r' then ['\\', 'r']
  else if isControl c then
    ['\\', 'u', '0', '0', hexDigit (c.toNat / 16), hexDigit (c.toNat % 16)]
  else [c]

/-- The characters of a text between quotation marks. As many quotation marks as there is `room` for
can stand next to each other, of which `run` have just been written; one more is escaped. -/
def writeChars (room : Nat) (lines : Bool) (run : Nat) : List Char → List Char
  | [] => []
  | c :: rest =>
    if c = '"' then
      if run < room then '"' :: writeChars room lines (run + 1) rest
      else '\\' :: '"' :: writeChars room lines 0 rest
    else writeChar lines c ++ writeChars room lines 0 rest

/-- The characters of a text between its marks. -/
def TextStyle.body (style : TextStyle) (s : List Char) : List Char :=
  match style with
  | .basic => writeChars 0 false 0 s
  | .literal => s
  | .basicLines => writeChars 2 true 0 s
  | .literalLines => s

/-- A text with its marks. One with a line feed starts on a line of its own. -/
def writeText (s : List Char) : List Char :=
  let style := TextStyle.of s
  style.mark ++ (if s.contains '\n' then ['\n'] else []) ++ style.body s ++ style.mark

/-- A value other than an array or a table. Nothing for an integer with more than 64 bits, and for
what is not kept as it was written. -/
def writeLeaf? : Toml → Option (List Char)
  | text s => some (writeText s.toList)
  | integer n => if inRange n then some (Text.signedDecimal n) else none
  | boolean b => some (if b then "true".toList else "false".toList)
  | _ => none

/-- The items of an array: two or more stand on lines of their own. -/
def writeItems : List (List Char) → List Char
  | [] => ['[', ']']
  | [item] => '[' :: item ++ [']']
  | items => '[' :: items.flatMap (fun item => "\n    ".toList ++ item ++ [',']) ++ ['\n', ']']

/-- A value other than a table. -/
def writeValue? : Toml → Option (List Char)
  | array items => writeItems <$> items.mapM writeLeaf?
  | value => writeLeaf? value

/-- A key, if it needs no marks. -/
def writeKey? (key : String) : Option (List Char) :=
  if !key.isEmpty && key.toList.all isKeyChar then some key.toList else none

/-- A line with a key and a value. -/
def writeEntry? (entry : String × Toml) : Option (List Char) := do
  return (← writeKey? entry.1) ++ " = ".toList ++ (← writeValue? entry.2) ++ ['\n']

/-- Lines with keys and values. -/
def writeEntries? (entries : List (String × Toml)) : Option (List Char) :=
  List.flatten <$> entries.mapM writeEntry?

/-- The entries that are tables. -/
def tablesOf (entries : List (String × Toml)) : List (String × List (String × Toml)) :=
  entries.filterMap fun (key, value) =>
    match value with
    | table _ inner => some (key, inner)
    | _ => none

/-- The entries that are no tables. -/
def valuesOf (entries : List (String × Toml)) : List (String × Toml) :=
  entries.filter fun (_, value) =>
    match value with
    | table _ _ => false
    | _ => true

/-- A table under its header, after an empty line. -/
def writeTable? (entry : String × List (String × Toml)) : Option (List Char) := do
  return "\n[".toList ++ (← writeKey? entry.1) ++ "]\n".toList ++ (← writeEntries? entry.2)

/-- The text of a file that starts with values and goes on with tables, which hold values only. -/
def write? (entries : List (String × Toml)) : Option String := do
  let values ← writeEntries? (valuesOf entries)
  let tables ← (tablesOf entries).mapM writeTable?
  return String.ofList (values ++ tables.flatten)

/-- Why a file cannot be written. -/
inductive WriteError where
  /-- A value has no written form. -/
  | noForm
  /-- A text has more marks next to each other than are counted. -/
  | longRun
  deriving DecidableEq, Repr

/-- How many marks next to each other are counted: as many as a byte can tell. -/
def longestRun : Nat := 255

/-- A text has more quotation marks or apostrophes next to each other than are counted. -/
def hasLongRun (s : String) : Bool :=
  hasRun '"' (longestRun + 1) s.toList || hasRun '\'' (longestRun + 1) s.toList

/-- The texts in a value other than a table. -/
def textsOf : Toml → List String
  | text s => [s]
  | array items => items.flatMap fun
    | .text s => [s]
    | _ => []
  | _ => []

/-- The text of a file, as `write?` tells it, if its texts have no long runs of marks. The marks of
a text are counted only after every value has got a form. Source: toml `to_string_pretty`. -/
def write (entries : List (String × Toml)) : Except WriteError String :=
  match write? entries with
  | none => .error .noForm
  | some sheet =>
    let written := valuesOf entries ++ (tablesOf entries).flatMap (·.2)
    if written.any fun (_, value) => (textsOf value).any hasLongRun then .error .longRun
    else .ok sheet

end TraceJournal.Toml
