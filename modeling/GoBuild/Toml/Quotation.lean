/-!
# Strings in TOML

The four forms of strings: between single or triple quotes, and with escapes (double quotes) or
without (single quotes). A string between triple quotes may hold newlines; one that follows the
opening quotes is left out, and one after a backslash is left out with the blanks after it. The
reading functions take what follows the opening quotes and return what follows the closing ones.
They have a bound on the number of steps, which any number above that of the characters meets.
-/

namespace GoBuild.Toml

/-- A reading: what was read, and what follows it. -/
abbrev Reading (α : Type) := Option (α × List Char)

/-- The character is a space or a tab. -/
def isSpace (c : Char) : Bool := c = ' ' || c = '\t'

/-- The character can stand in comments and strings: it is no control character but the tab. -/
def isPlain (c : Char) : Bool := c = '\t' || (0x20 ≤ c.toNat && c.toNat ≠ 0x7f)

/-- What follows a newline at the beginning. -/
def afterNewline? : List Char → Option (List Char)
  | '\n' :: rest => some rest
  | '\r' :: '\n' :: rest => some rest
  | _ => none

/-- The text without a newline at its beginning. -/
def dropNewline (cs : List Char) : List Char := (afterNewline? cs).getD cs

/-- The code point that hexadecimal digits write. -/
def codePoint (digits : List Char) : Option Char :=
  let value? (c : Char) : Option Nat :=
    if c.isDigit then some (c.toNat - '0'.toNat)
    else if 'a' ≤ c && c ≤ 'f' then some (c.toNat - 'a'.toNat + 10)
    else if 'A' ≤ c && c ≤ 'F' then some (c.toNat - 'A'.toNat + 10)
    else none
  (digits.mapM value?).bind fun values =>
    let code := values.foldl (fun n d => n * 16 + d) 0
    if code.isValidChar then some (Char.ofNat code) else none

/-- Reads a code point of as many hexadecimal digits as `size`. -/
def readCodePoint (size : Nat) (cs : List Char) : Reading Char :=
  let digits := cs.take size
  if digits.length < size then none else (codePoint digits).map (·, cs.drop size)

/-- The character that an escape stands for, read after its backslash. -/
def readEscape : List Char → Reading Char
  | 'b' :: rest => some ('\x08', rest)
  | 't' :: rest => some ('\t', rest)
  | 'n' :: rest => some ('\n', rest)
  | 'f' :: rest => some ('\x0c', rest)
  | 'r' :: rest => some ('\r', rest)
  | '\"' :: rest => some ('\"', rest)
  | '\\' :: rest => some ('\\', rest)
  | 'u' :: rest => readCodePoint 4 rest
  | 'U' :: rest => readCodePoint 8 rest
  | _ => none

/-- Reads a string between double quotes; `read` holds its characters so far, last one first. -/
def readBasic : Nat → List Char → List Char → Reading String
  | 0, _, _ => none
  | _ + 1, _, [] => none
  | n + 1, read, c :: rest =>
    if c = '\"' then some (String.ofList read.reverse, rest)
    else if c = '\\' then
      match readEscape rest with
      | some (e, more) => readBasic n (e :: read) more
      | none => none
    else if isPlain c then readBasic n (c :: read) rest
    else none

/-- Reads a string between single quotes. -/
def readLiteral : Nat → List Char → List Char → Reading String
  | 0, _, _ => none
  | _ + 1, _, [] => none
  | n + 1, read, c :: rest =>
    if c = '\'' then some (String.ofList read.reverse, rest)
    else if isPlain c then readLiteral n (c :: read) rest
    else none

/-- The quotes before the closing three, and what follows those, at a run of three quotes or more. -/
def closing? (quote : Char) : List Char → Reading (List Char)
  | a :: b :: c :: rest =>
    if a = quote && b = quote && c = quote then
      match rest with
      | d :: e :: more =>
        if d = quote && e = quote then some ([quote, quote], more)
        else if d = quote then some ([quote], e :: more)
        else some ([], rest)
      | [d] => if d = quote then some ([quote], []) else some ([], rest)
      | [] => some ([], [])
    else none
  | _ => none

/-- What follows a newline after blanks, and the blanks and newlines after it. -/
def afterContinuation? (cs : List Char) : Option (List Char) :=
  (afterNewline? (cs.dropWhile isSpace)).map fun rest => skip rest
where
  /-- The text without the blanks and newlines at its beginning. -/
  skip : List Char → List Char
    | '\n' :: rest => skip rest
    | '\r' :: '\n' :: rest => skip rest
    | c :: rest => if isSpace c then skip rest else c :: rest
    | [] => []

/-- Reads a string between three double quotes. -/
def readMultiBasic : Nat → List Char → List Char → Reading String
  | 0, _, _ => none
  | _ + 1, _, [] => none
  | n + 1, read, c :: rest =>
    match closing? '\"' (c :: rest) with
    | some (quotes, more) => some (String.ofList (read.reverse ++ quotes), more)
    | none =>
      if c = '\\' then
        match afterContinuation? rest with
        | some more => readMultiBasic n read more
        | none =>
          match readEscape rest with
          | some (e, more) => readMultiBasic n (e :: read) more
          | none => none
      else
        match afterNewline? (c :: rest) with
        | some more => readMultiBasic n ('\n' :: read) more
        | none => if isPlain c then readMultiBasic n (c :: read) rest else none

/-- Reads a string between three single quotes. -/
def readMultiLiteral : Nat → List Char → List Char → Reading String
  | 0, _, _ => none
  | _ + 1, _, [] => none
  | n + 1, read, c :: rest =>
    match closing? '\'' (c :: rest) with
    | some (quotes, more) => some (String.ofList (read.reverse ++ quotes), more)
    | none =>
      match afterNewline? (c :: rest) with
      | some more => readMultiLiteral n ('\n' :: read) more
      | none => if isPlain c then readMultiLiteral n (c :: read) rest else none

/-- Reads a string on one line, with its quotes. -/
def readLineString (bound : Nat) : List Char → Reading String
  | '\"' :: rest => readBasic bound [] rest
  | '\'' :: rest => readLiteral bound [] rest
  | _ => none

/-- Reads a string of any form, with its quotes. -/
def readString (bound : Nat) : List Char → Reading String
  | '\"' :: '\"' :: '\"' :: rest => readMultiBasic bound [] (dropNewline rest)
  | '\'' :: '\'' :: '\'' :: rest => readMultiLiteral bound [] (dropNewline rest)
  | cs => readLineString bound cs

end GoBuild.Toml
