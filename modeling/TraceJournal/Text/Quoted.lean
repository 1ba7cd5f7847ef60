import TraceJournal.Text.Printable

/-!
# Quoted texts in messages

A text between quotation marks as diagnostics show it: what is not printed as it is stands as an
escape, so that the quoted text is visible as a whole.
-/

namespace TraceJournal.Text

/-- One character of a quoted text. -/
def quotedChar (c : Char) : List Char :=
  if c.toNat = 0 then ['\\', '0']
  else if c = '\t' then ['\\', 't']
  else if c = '\r' then ['\\', 'r']
  else if c = '\n' then ['\\', 'n']
  else if c = '\\' then ['\\', '\\']
  else if c = '"' then ['\\', '"']
  else if isPrintable c then [c]
  else '\\' :: 'u' :: '\x7b' :: Nat.toDigits 16 c.toNat ++ ['\x7d']

/-- A text between quotation marks. -/
def quoted (s : String) : String :=
  String.ofList ('"' :: s.toList.flatMap quotedChar ++ ['"'])

/-- A structure with named fields as diagnostics show it. -/
def fieldsText (name : String) (fields : List (String × String)) : String :=
  name ++ " \x7b " ++ ", ".intercalate (fields.map fun (label, value) => label ++ ": " ++ value) ++
    " \x7d"

/-- What may be missing, as diagnostics show it. -/
def optionText : Option String → String
  | none => "None"
  | some text => "Some(" ++ text ++ ")"

/-- A truth value. -/
def flagText (b : Bool) : String := if b then "true" else "false"

end TraceJournal.Text
