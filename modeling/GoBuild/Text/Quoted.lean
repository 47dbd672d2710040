import GoBuild.Text.Printable

/-!
# Quotations

A text in double quotes as messages show it. A quote and a backslash are written after a backslash,
the tab, the newline, the carriage return and the null character by their letters, and every other
character that has no visible form of its own by its code point in braces.
-/

namespace GoBuild.Text

/-- The hexadecimal digits of `n`, in lower case and without leading zeros. -/
def hexDigits (n : Nat) : List Char := Nat.toDigits 16 n

/-- The way a character is written in a quotation. -/
def quotedChar (c : Char) : List Char :=
  if c = '\"' then ['\\', '\"']
  else if c = '\\' then ['\\', '\\']
  else if c = '\t' then ['\\', 't']
  else if c = '\n' then ['\\', 'n']
  else if c = '\r' then ['\\', 'r']
  else if c = '\x00' then ['\\', '0']
  else if extendsGrapheme c || !isPrintable c then
    ['\\', 'u', '\x7b'] ++ hexDigits c.toNat ++ ['\x7d']
  else [c]

/-- The text in double quotes. -/
def quoted (text : String) : String :=
  String.ofList ('\"' :: (text.toList.flatMap quotedChar ++ ['\"']))

end GoBuild.Text
