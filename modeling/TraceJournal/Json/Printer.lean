import TraceJournal.Json.Value
import TraceJournal.Number.Shortest

/-!
# Written form of JSON values

The compact form: no blanks, and in texts only the quotation mark, the backslash and the control
characters are escaped. Every value has exactly one such form.

Library serde_json, `to_string` and `to_vec`.
-/

namespace TraceJournal.Json

open TraceJournal.Text

/-- A hexadecimal digit, in lower case. -/
def hexDigit (n : Nat) : Char := Nat.digitChar n

/-- One character inside a quoted text. -/
def escapeChar (c : Char) : List Char :=
  if c = '"' then ['\\', '"']
  else if c = '\\' then ['\\', '\\']
  else if c.toNat = 8 then ['\\', 'b']
  else if c.toNat = 12 then ['\\', 'f']
  else if c = '\n' then ['\\', 'n']
  else if c = '\r' then ['\\', 'r']
  else if c = '\t' then ['\\', 't']
  else if c.toNat < 32 then
    ['\\', 'u', '0', '0', hexDigit (c.toNat / 16), hexDigit (c.toNat % 16)]
  else [c]

/-- A quoted text. -/
def quotedChars (s : String) : List Char := '"' :: s.toList.flatMap escapeChar ++ ['"']

/-- A number. -/
def Number.chars : Number → List Char
  | .integer n _ _ => signedDecimal n
  | .decimal x => Number.text x

mutual
/-- The characters of a value. -/
def chars : Json → List Char
  | null => ['n', 'u', 'l', 'l']
  | boolean true => ['t', 'r', 'u', 'e']
  | boolean false => ['f', 'a', 'l', 's', 'e']
  | number n => n.chars
  | text s => quotedChars s
  | array [] => ['[', ']']
  | array (item :: rest) => '[' :: item.chars ++ moreItemChars rest
  | object [] => ['{', '}']
  | object ((name, value) :: rest) =>
    '{' :: quotedChars name ++ ':' :: value.chars ++ moreFieldChars rest

/-- The items after the first one, and the end of the array. -/
def moreItemChars : List Json → List Char
  | [] => [']']
  | item :: rest => ',' :: item.chars ++ moreItemChars rest

/-- The fields after the first one, and the end of the object. -/
def moreFieldChars : List (String × Json) → List Char
  | [] => ['}']
  | (name, value) :: rest =>
    ',' :: quotedChars name ++ ':' :: value.chars ++ moreFieldChars rest
end

/-- The compact text of a value. Source: serde_json `to_string`. -/
def render (j : Json) : String := String.ofList j.chars

/-- A list of values as the text of an array. -/
def renderAll (items : List Json) : String := (array items).render

end TraceJournal.Json
