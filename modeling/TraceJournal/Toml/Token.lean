import TraceJournal.Bytes.Hexadecimal
import TraceJournal.Number.Reader
import TraceJournal.Toml.Value

/-!
# Parts of TOML text

Readers of blanks, comments, texts, numbers and moments. Each takes what it reads off the front of
the text and answers the rest, or nothing if the text is malformed.

Library toml, the parts of its reader.
-/

namespace TraceJournal.Toml

/-- A reader takes something off the front of a text. -/
abbrev Scan (α : Type) := List Char → Option (α × List Char)

/-- A blank inside a line. -/
def isGap (c : Char) : Bool := c == ' ' || c == '\t'

/-- The text without the blanks in front. -/
def skipGaps (input : List Char) : List Char := input.dropWhile isGap

/-- A character that can stand in a comment: no control character but the tabulator. -/
def isPlain (c : Char) : Bool := c == '\t' || (32 ≤ c.toNat && c.toNat ≠ 127)

/-- A character of a key without marks. -/
def isKeyChar (c : Char) : Bool := c.isAlphanum || c == '_' || c == '-'

/-- The text after a line end, or at the end of the text. -/
def endLine : List Char → Option (List Char)
  | [] => some []
  | '\n' :: rest => some rest
  | '\r' :: '\n' :: rest => some rest
  | _ => none

/-- The text after a comment, if one stands here. -/
def skipComment : List Char → List Char
  | '#' :: rest => rest.dropWhile isPlain
  | input => input

/-- The text after the blanks and the comment that may end a line, and the line end. -/
def finishLine (input : List Char) : Option (List Char) := endLine (skipComment (skipGaps input))

/-- The text after blanks, comments and line ends. Every round takes at least one character. -/
def skipLines : Nat → List Char → Option (List Char)
  | 0, input => some input
  | rounds + 1, input =>
    match skipGaps input with
    | '\n' :: rest => skipLines rounds rest
    | '\r' :: rest =>
      match rest with
      | '\n' :: rest => skipLines rounds rest
      | _ => none
    | '#' :: rest =>
      match rest.dropWhile isPlain with
      | [] => none
      | input => do skipLines rounds (← endLine input)
    | rest => some rest

/-! ## Texts -/

/-- The character with the code that `count` hexadecimal digits give. -/
def readCode (count : Nat) : Scan Char := fun input => do
  let digits ← (input.take count).mapM Bytes.digitValue?
  let code := digits.foldl (fun n d => n * 16 + d) 0
  if digits.length = count ∧ code.isValidChar then some (Char.ofNat code, input.drop count)
  else none

/-- The character of an escape, read after the backslash. -/
def readEscape : Scan Char
  | 'b' :: rest => some ('\x08', rest)
  | 'f' :: rest => some ('\x0c', rest)
  | 'n' :: rest => some ('\n', rest)
  | 'r' :: rest => some ('\r', rest)
  | 't' :: rest => some ('\t', rest)
  | '\\' :: rest => some ('\\', rest)
  | '"' :: rest => some ('"', rest)
  | 'u' :: rest => readCode 4 rest
  | 'U' :: rest => readCode 8 rest
  | _ => none

/-- A text on one line between quotation marks, read after the first of them. Every round takes at
least one character. -/
def readBasic : Nat → Scan (List Char)
  | 0, _ => none
  | _ + 1, [] => none
  | rounds + 1, c :: rest =>
    if c = '"' then some ([], rest)
    else if c = '\\' then do
      let (c, rest) ← readEscape rest
      let (more, rest) ← readBasic rounds rest
      return (c :: more, rest)
    else if isPlain c then do
      let (more, rest) ← readBasic rounds rest
      return (c :: more, rest)
    else none

/-- A text on one line between apostrophes, read after the first of them. -/
def readLiteral : Scan (List Char) := fun input =>
  match input.dropWhile fun c => isPlain c && c != '\'' with
  | '\'' :: rest => some (input.takeWhile fun c => isPlain c && c != '\'', rest)
  | _ => none

/-- The end of a text on several lines, or the marks inside it, of which there is a run of `count`
here: three marks end it, with one or two more that belong to the text. -/
def closing? (count : Nat) : Option Nat := if 3 ≤ count ∧ count ≤ 5 then some (count - 3) else none

/-- The text without the blanks and line ends in front. -/
def skipBlanks : List Char → List Char
  | '\r' :: '\n' :: rest => skipBlanks rest
  | c :: rest => if isGap c || c == '\n' then skipBlanks rest else c :: rest
  | [] => []

/-- A text on several lines between three quotation marks, read after the first three. -/
def readBasicLines : Nat → Scan (List Char)
  | 0, _ => none
  | _ + 1, [] => none
  | rounds + 1, c :: rest =>
    if c = '"' then
      let marks := (c :: rest).takeWhile (· == '"')
      let after := (c :: rest).dropWhile (· == '"')
      if marks.length < 3 then
        if after.isEmpty then none
        else do
          let (more, rest) ← readBasicLines rounds after
          return (marks ++ more, rest)
      else do return (List.replicate (← closing? marks.length) '"', after)
    else if c = '\\' then
      match skipGaps rest with
      | '\n' :: _ | '\r' :: '\n' :: _ =>
        -- A backslash at the end of a line takes all blanks and line ends after it along.
        readBasicLines rounds (skipBlanks rest)
      | _ => do
        let (c, rest) ← readEscape rest
        let (more, rest) ← readBasicLines rounds rest
        return (c :: more, rest)
    else if c = '\r' then
      match rest with
      | '\n' :: rest => do
        let (more, rest) ← readBasicLines rounds rest
        return ('\n' :: more, rest)
      | _ => none
    else if isPlain c ∨ c = '\n' then do
      let (more, rest) ← readBasicLines rounds rest
      return (c :: more, rest)
    else none

/-- A text on several lines between three apostrophes, read after the first three. -/
def readLiteralLines : Nat → Scan (List Char)
  | 0, _ => none
  | _ + 1, [] => none
  | rounds + 1, c :: rest =>
    if c = '\'' then
      let marks := (c :: rest).takeWhile (· == '\'')
      let after := (c :: rest).dropWhile (· == '\'')
      if marks.length < 3 then
        if after.isEmpty then none
        else do
          let (more, rest) ← readLiteralLines rounds after
          return (marks ++ more, rest)
      else do return (List.replicate (← closing? marks.length) '\'', after)
    else if c = '\r' then
      match rest with
      | '\n' :: rest => do
        let (more, rest) ← readLiteralLines rounds rest
        return ('\n' :: more, rest)
      | _ => none
    else if isPlain c ∨ c = '\n' then do
      let (more, rest) ← readLiteralLines rounds rest
      return (c :: more, rest)
    else none

/-- The text without a line end in front. -/
def skipFirstEnd : List Char → List Char
  | '\n' :: rest => rest
  | '\r' :: '\n' :: rest => rest
  | input => input

/-- A text of any kind. -/
def readText : Scan String := fun input => do
  let (chars, rest) ←
    match input with
    | '"' :: '"' :: '"' :: rest => readBasicLines (rest.length + 1) (skipFirstEnd rest)
    | '"' :: rest => readBasic (rest.length + 1) rest
    | '\'' :: '\'' :: '\'' :: rest => readLiteralLines (rest.length + 1) (skipFirstEnd rest)
    | '\'' :: rest => readLiteral rest
    | _ => none
  return (String.ofList chars, rest)

/-! ## Numbers -/

/-- Digits of some base, between which single underscores may stand. The first of them is there
already; every round takes at least one character. -/
def readDigits (isDigit : Char → Bool) : Nat → Scan (List Char)
  | 0, input => some ([], input)
  | rounds + 1, input =>
    match input with
    | '_' :: d :: rest =>
      if isDigit d then do
        let (more, rest) ← readDigits isDigit rounds rest
        return (d :: more, rest)
      else none
    | ['_'] => none
    | d :: rest =>
      if isDigit d then do
        let (more, rest) ← readDigits isDigit rounds rest
        return (d :: more, rest)
      else some ([], d :: rest)
    | [] => some ([], [])

/-- At least one digit of some base. -/
def readSomeDigits (isDigit : Char → Bool) : Scan (List Char)
  | [] => none
  | d :: rest =>
    if isDigit d then do
      let (more, rest) ← readDigits isDigit rest.length rest
      return (d :: more, rest)
    else none

/-- The whole digits of a decimal number: a zero stands alone. -/
def readWhole : Scan (List Char)
  | '0' :: rest => some (['0'], rest)
  | input => readSomeDigits Char.isDigit input

/-- The integer, if it fits into 64 bits. -/
def checked (n : Int) : Option Toml :=
  if inRange n then some (integer n) else none

/-- An integer in another base than ten, read after its mark. -/
def readBased (base : Nat) : Scan Toml := fun input => do
  let isDigit (c : Char) : Bool := (Bytes.digitValue? c).any (· < base)
  let (digits, rest) ← readSomeDigits isDigit input
  let n := (digits.filterMap Bytes.digitValue?).foldl (fun n d => n * base + d) 0
  return (← checked n, rest)

/-- The exponent of a number, if there is one, as it is written without underscores. -/
def readExponent : Scan (List Char)
  | [] => some ([], [])
  | e :: rest =>
    if e = 'e' ∨ e = 'E' then
      let (sign, rest) :=
        match rest with
        | '+' :: rest => (['+'], rest)
        | '-' :: rest => (['-'], rest)
        | _ => ([], rest)
      do
        let (digits, rest) ← readSomeDigits Char.isDigit rest
        return ('e' :: sign ++ digits, rest)
    else some ([], e :: rest)

/-- The number that a decimal text stands for; one that is too large and positive is malformed. -/
def decimalOf (sign digits : List Char) : Option Toml := do
  let value ← Number.read? (String.ofList (sign ++ digits))
  if value.isNone ∧ sign ≠ ['-'] then none else some (decimal value)

/-- A decimal number, read after its sign. -/
def readDecimal (sign : List Char) : Scan Toml := fun input => do
  let (whole, rest) ← readWhole input
  match rest with
  | '.' :: rest =>
    let (places, rest) ← readSomeDigits Char.isDigit rest
    let (exponent, rest) ← readExponent rest
    return (← decimalOf sign (whole ++ '.' :: places ++ exponent), rest)
  | _ =>
    let (exponent, rest) ← readExponent rest
    if exponent.isEmpty then
      let n : Int := Text.decimalValue whole
      return (← checked (if sign = ['-'] then -n else n), rest)
    else return (← decimalOf sign (whole ++ exponent), rest)

/-- A number that is not finite, or a decimal one, after its sign. -/
def readSigned (sign : List Char) : Scan Toml
  | 'i' :: 'n' :: 'f' :: rest => some (decimal none, rest)
  | 'n' :: 'a' :: 'n' :: rest => some (decimal none, rest)
  | input => readDecimal sign input

/-! ## Moments -/

/-- Two digits with a value between bounds. -/
def readPair (low high : Nat) : Scan Nat
  | a :: b :: rest =>
    if a.isDigit ∧ b.isDigit ∧ low ≤ Text.decimalValue [a, b] ∧ Text.decimalValue [a, b] ≤ high then
      some (Text.decimalValue [a, b], rest)
    else none
  | _ => none

/-- The text after a given character. -/
def expect (mark : Char) : List Char → Option (List Char)
  | c :: rest => if c = mark then some rest else none
  | [] => none

/-- The text after a fraction of a second, if there is one. -/
def skipFraction (input : List Char) : List Char :=
  match input with
  | '.' :: rest =>
    if (rest.takeWhile Char.isDigit).isEmpty then input else rest.dropWhile Char.isDigit
  | _ => input

/-- A time of day starts here. -/
def startsTime (input : List Char) : Bool :=
  match readPair 0 23 input with
  | some (_, ':' :: _) => true
  | _ => false

/-- The text after a time of day. -/
def skipTime (input : List Char) : Option (List Char) := do
  let (_, rest) ← readPair 0 23 input
  let (_, rest) ← readPair 0 59 (← expect ':' rest)
  let (_, rest) ← readPair 0 60 (← expect ':' rest)
  return skipFraction rest

/-- The text after an offset from UTC, if there is one. -/
def skipOffset : List Char → Option (List Char)
  | [] => some []
  | c :: rest =>
    if c = 'Z' ∨ c = 'z' then some rest
    else if c = '+' ∨ c = '-' then do
      let (_, rest) ← readPair 0 23 rest
      let (_, rest) ← readPair 0 59 (← expect ':' rest)
      return rest
    else some (c :: rest)

/-- The text after a date. -/
def skipDate (input : List Char) : Option (List Char) := do
  let year := Text.decimalValue (input.take 4)
  let (month, rest) ← readPair 1 12 (← expect '-' (input.drop 4))
  let (day, rest) ← readPair 1 31 (← expect '-' rest)
  if (Time.Date.mk year month day).isValid then some rest else none

/-- A date starts here. -/
def startsDate (input : List Char) : Bool :=
  let year := input.take 4
  year.length == 4 && year.all Char.isDigit && (input[4]?).any (· == '-')

/-- A moment: a date, with a time of day and an offset or without, or a time of day. -/
def readMoment : Scan Toml := fun input =>
  if startsDate input then do
    let rest ← skipDate input
    match rest with
    | c :: after =>
      if (c = 'T' ∨ c = 't' ∨ c = ' ') ∧ startsTime after then
        return (moment, ← skipOffset (← skipTime after))
      else return (moment, rest)
    | [] => return (moment, [])
  else do return (moment, ← skipTime input)

/-- A number or a moment. -/
def readNumber : Scan Toml := fun input =>
  if startsDate input || startsTime input then readMoment input
  else
    match input with
    | '0' :: 'x' :: rest => readBased 16 rest
    | '0' :: 'o' :: rest => readBased 8 rest
    | '0' :: 'b' :: rest => readBased 2 rest
    | '+' :: rest => readSigned ['+'] rest
    | '-' :: rest => readSigned ['-'] rest
    | _ => readSigned [] input

end TraceJournal.Toml
