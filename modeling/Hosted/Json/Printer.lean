import Hosted.Json.Value
import Hosted.Json.Double

/-!
# Compact JSON text

No blanks; a string escapes the quote, the backslash and the control characters
below the blank, and nothing else.
-/

namespace Hosted.Json

/-- The escaped form of a character inside a string. -/
def escapeChar (c : Char) : List Char :=
  if c = '"' then ['\\', '"']
  else if c = '\\' then ['\\', '\\']
  else if c = '\x08' then ['\\', 'b']
  else if c = '\x0c' then ['\\', 'f']
  else if c = '\n' then ['\\', 'n']
  else if c = '\r' then ['\\', 'r']
  else if c = '\t' then ['\\', 't']
  else if c.toNat < 0x20 then
    ['\\', 'u', '0', '0', Nat.digitChar (c.toNat / 16), Nat.digitChar (c.toNat % 16)]
  else [c]

/-- A string in quotes. -/
def renderString (s : String) : List Char := '"' :: (s.toList.flatMap escapeChar ++ ['"'])

/-- An integer. -/
def renderInteger (i : Int) : List Char :=
  if i < 0 then '-' :: digits i.natAbs else digits i.natAbs

def Number.render : Number → List Char
  | .integer i => renderInteger i
  | .double bits => Double.text bits

mutual

/-- The compact text of a value. -/
def Value.render : Value → List Char
  | .null => ['n', 'u', 'l', 'l']
  | .bool true => ['t', 'r', 'u', 'e']
  | .bool false => ['f', 'a', 'l', 's', 'e']
  | .number n => n.render
  | .string s => renderString s
  | .array [] => ['[', ']']
  | .array (v :: rest) => '[' :: (v.render ++ renderItems rest)
  | .object [] => ['{', '}']
  | .object ((name, v) :: rest) =>
    '{' :: (renderString name ++ ':' :: (v.render ++ renderFields rest))

/-- The items after the first one, and the closing bracket. -/
def renderItems : List Value → List Char
  | [] => [']']
  | v :: rest => ',' :: (v.render ++ renderItems rest)

/-- The fields after the first one, and the closing brace. -/
def renderFields : List (String × Value) → List Char
  | [] => ['}']
  | (name, v) :: rest =>
    ',' :: (renderString name ++ ':' :: (v.render ++ renderFields rest))

end

end Hosted.Json
