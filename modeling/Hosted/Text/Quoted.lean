import Hosted.Text.Visible

/-!
# Quoted text

The form in which texts and records are shown to a developer: text in quotes with
escapes for the quote, the backslash and whatever has no visible form, and records
as `Name { field: value }`.
-/

namespace Hosted

/-- A character as shown inside quotes. -/
def quotedChar (c : Char) : List Char :=
  if c = '"' then ['\\', '"']
  else if c = '\\' then ['\\', '\\']
  else if c = '\t' then ['\\', 't']
  else if c = '\r' then ['\\', 'r']
  else if c = '\n' then ['\\', 'n']
  else if c = '\x00' then ['\\', '0']
  else if isVisible c then [c]
  else ['\\', 'u', '{'] ++ Nat.toDigits 16 c.toNat ++ ['}']

/-- A text in quotes. -/
def quoted (s : String) : String :=
  String.ofList ('"' :: (s.toList.flatMap quotedChar ++ ['"']))

/-- The text of a truth value. -/
def boolText (b : Bool) : String := if b then "true" else "false"

/-- The text of an optional value. -/
def optionText : Option String → String
  | some s => "Some(" ++ s ++ ")"
  | none => "None"

/-- The text `Name { field: value, field: value }` of a record. -/
def recordText (name : String) (fields : List (String × String)) : String :=
  name ++ " \x7b " ++ ", ".intercalate (fields.map fun f => f.1 ++ ": " ++ f.2) ++ " \x7d"

end Hosted
