import GoBuild.Json.Basic

/-!
# Written JSON

A JSON value on one line without blanks. In strings, a quote, a backslash and the control characters
below the space are escaped, those with a letter of their own by it and the others by four lower-case
hexadecimal digits; all other characters stand for themselves.
-/

namespace GoBuild.Json

/-- The hexadecimal digit with the value `n`, in lower case. -/
def hexDigit (n : Nat) : Char := Nat.digitChar n

/-- The way a character is written in a string. -/
def escapedChar (c : Char) : List Char :=
  if c = '\"' then ['\\', '\"']
  else if c = '\\' then ['\\', '\\']
  else if c = '\x08' then ['\\', 'b']
  else if c = '\t' then ['\\', 't']
  else if c = '\n' then ['\\', 'n']
  else if c = '\x0c' then ['\\', 'f']
  else if c = '\r' then ['\\', 'r']
  else if c.toNat < 0x20 then
    ['\\', 'u', '0', '0', hexDigit (c.toNat / 16), hexDigit (c.toNat % 16)]
  else [c]

/-- The string in quotes. -/
def quote (s : String) : List Char := '\"' :: (s.toList.flatMap escapedChar ++ ['\"'])

/-- The parts with a comma between them. -/
def commaSeparated (parts : List (List Char)) : List Char := List.intercalate [','] parts

mutual

/-- The characters of the written value. -/
def chars : Json → List Char
  | null => "null".toList
  | bool true => "true".toList
  | bool false => "false".toList
  | number text => text
  | string text => quote (text.getD "")
  | array items => '[' :: (commaSeparated (itemChars items) ++ [']'])
  | object members => '\x7b' :: (commaSeparated (memberChars members) ++ ['\x7d'])

/-- The characters of each item of an array. -/
def itemChars : List Json → List (List Char)
  | [] => []
  | item :: rest => item.chars :: itemChars rest

/-- The characters of each member of an object. -/
def memberChars : List (Option String × Json) → List (List Char)
  | [] => []
  | (name, value) :: rest => (quote (name.getD "") ++ ':' :: value.chars) :: memberChars rest

end

/-- The written value. -/
def render (value : Json) : String := String.ofList value.chars

end GoBuild.Json
