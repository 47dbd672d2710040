import GoBuild.Text.Trim
import GoBuild.Toml.Number
import GoBuild.Toml.Quotation
import GoBuild.Toml.Table

/-!
# Reading TOML documents

A document is a sequence of lines: blank ones, comments, headers of tables, and keys with their
values. Values are read down to a fixed depth of nesting. Loops over items and lines have a bound on
the number of steps, which any number above that of the characters meets.
-/

namespace GoBuild.Toml

/-- The text without spaces and tabs at its beginning. -/
def skipSpaces (cs : List Char) : List Char := cs.dropWhile isSpace

/-- The text without a comment at its beginning. -/
def skipComment : List Char → List Char
  | '#' :: rest => rest.dropWhile isPlain
  | cs => cs

/-- What follows the end of the line, before which blanks and a comment may stand. -/
def afterLine? (cs : List Char) : Option (List Char) :=
  match skipComment (skipSpaces cs) with
  | [] => some []
  | rest => afterNewline? rest

/-- The text without the blanks, newlines and comments at its beginning, which is inside a comment
if `commented`. -/
def skipLayout (commented : Bool) : List Char → List Char
  | '\n' :: rest => skipLayout false rest
  | '\r' :: '\n' :: rest => skipLayout false rest
  | c :: rest =>
    if isSpace c || (commented && isPlain c) then skipLayout commented rest
    else if c = '#' then skipLayout true rest
    else c :: rest
  | [] => []

/-- The character can stand in a key without quotes. -/
def isKeyChar (c : Char) : Bool := c.isAlphanum || c = '_' || c = '-'

/-- Reads one key, without quotes or with them. -/
def readSimpleKey (bound : Nat) (cs : List Char) : Reading String :=
  match cs with
  | '\"' :: _ | '\'' :: _ => readLineString bound cs
  | _ =>
    match cs.takeWhile isKeyChar with
    | [] => none
    | word => some (String.ofList word, cs.dropWhile isKeyChar)

/-- Reads keys with points between them, with the blanks around them, but no more of them than the
first number says; `read` holds the keys so far, last one first. -/
def readKeys (bound : Nat) : Nat → List String → List Char → Reading (List String)
  | 0, _, _ => none
  | n + 1, read, cs =>
    match readSimpleKey bound (skipSpaces cs) with
    | none => none
    | some (key, rest) =>
      match skipSpaces rest with
      | '.' :: more => readKeys bound n (key :: read) more
      | more => some (key :: read, more)

/-- A dotted key: its last key, and those before it. -/
structure DottedKey where
  path : List String
  last : String

/-- All keys of a dotted key. -/
def DottedKey.all (k : DottedKey) : List String := k.path ++ [k.last]

/-- Reads a dotted key. -/
def readKey (bound : Nat) (cs : List Char) : Reading DottedKey :=
  match readKeys bound (depthBound - 1) [] cs with
  | some (last :: before, rest) => some (⟨before.reverse, last⟩, rest)
  | _ => none

/-- The character can stand in a number, a date or a truth value. -/
def isWordChar (c : Char) : Bool :=
  c.isAlphanum || c = '+' || c = '-' || c = '.' || c = '_' || c = ':'

/-- The value that a word is. -/
def ofWord? (word : List Char) : Option Toml :=
  if word = ['t', 'r', 'u', 'e'] then some (.bool true)
  else if word = ['f', 'a', 'l', 's', 'e'] then some (.bool false)
  else if isInteger word || isFloat word then some .number
  else if isDateTime word then some .dateTime
  else none

/-- Reads a value that is a word; a day may have a time after one space. -/
def readWord (cs : List Char) : Reading Toml :=
  let word := cs.takeWhile isWordChar
  let rest := cs.dropWhile isWordChar
  match rest with
  | ' ' :: more =>
    if isDate word && isZonedTime (more.takeWhile isWordChar) then
      some (.dateTime, more.dropWhile isWordChar)
    else (ofWord? word).map (·, rest)
  | _ => (ofWord? word).map (·, rest)

/-- Reads the items of an array, with commas between them, to the closing bracket. -/
def readItems (readValue : List Char → Reading Toml) :
    Nat → List Toml → List Char → Reading Toml
  | 0, _, _ => none
  | n + 1, read, cs =>
    match skipLayout false cs with
    | ']' :: rest => some (.array read.reverse, rest)
    | start =>
      match readValue start with
      | none => none
      | some (item, rest) =>
        match skipLayout false rest with
        | ',' :: more => readItems readValue n (item :: read) more
        | ']' :: more => some (.array (item :: read).reverse, more)
        | _ => none

/-- Reads a key, the equals sign and a value. -/
def readPair (bound : Nat) (readValue : List Char → Reading Toml) (cs : List Char) :
    Reading (DottedKey × Toml) :=
  match readKey bound cs with
  | some (key, '=' :: rest) => (readValue (skipSpaces rest)).map fun (v, more) => ((key, v), more)
  | _ => none

/-- Reads the pairs of a table between braces, with commas between them, to the closing brace. -/
def readPairs (bound : Nat) (readValue : List Char → Reading Toml) :
    Nat → Entries → List Char → Reading Toml
  | 0, _, _ => none
  | n + 1, entries, cs =>
    match readPair bound readValue cs with
    | none => none
    | some ((key, v), rest) =>
      match addDotted key.path key.last v entries with
      | none => none
      | some entries =>
        match skipSpaces rest with
        | ',' :: more => readPairs bound readValue n entries more
        | '\x7d' :: more => some (.table .inline entries, more)
        | _ => none

/-- Reads a value in which at most `depth` arrays and tables are nested. -/
def readValue (bound : Nat) : Nat → List Char → Reading Toml
  | depth, cs =>
    match cs with
    | '\"' :: _ | '\'' :: _ => (readString bound cs).map fun (s, rest) => (.text s, rest)
    | '[' :: rest =>
      match depth with
      | 0 => none
      | d + 1 => readItems (readValue bound d) bound [] rest
    | '\x7b' :: rest =>
      match depth with
      | 0 => none
      | d + 1 =>
        match skipSpaces rest with
        | '\x7d' :: more => some (.table .inline [], more)
        | start => readPairs bound (readValue bound d) bound [] start
    | _ => readWord cs

/-- The state of reading a document: the table at the root, and the header of the present table. -/
structure Document where
  root : Entries := []
  header : List String := []

/-- Reads the rest of a header, after its opening brackets. -/
def readHeader (bound : Nat) (isElement : Bool) (d : Document) (cs : List Char) :
    Option (Document × List Char) :=
  match readKey bound cs with
  | none => none
  | some (key, rest) => do
    let close := if isElement then [']', ']'] else [']']
    let closed ← Text.after? close rest
    let more ← afterLine? closed
    let opened := if isElement then openElement key.last else openTable key.last
    let root ← changeAt key.path opened d.root
    return (⟨root, key.all⟩, more)

/-- Reads a key with its value. -/
def readSetting (bound : Nat) (d : Document) (cs : List Char) :
    Option (Document × List Char) := do
  let ((key, v), rest) ← readPair bound (readValue bound (depthBound - 1)) cs
  let more ← afterLine? rest
  let root ← changeAt d.header (addDotted key.path key.last v) d.root
  return (⟨root, d.header⟩, more)

/-- Reads the lines of a document. -/
def readLines (bound : Nat) : Nat → Document → List Char → Option Entries
  | 0, _, _ => none
  | n + 1, d, cs =>
    let line := skipSpaces cs
    match line with
    | [] => some d.root
    | '[' :: '[' :: rest =>
      match readHeader bound true d rest with
      | some (d, more) => readLines bound n d more
      | none => none
    | '[' :: rest =>
      match readHeader bound false d rest with
      | some (d, more) => readLines bound n d more
      | none => none
    | c :: _ =>
      if c = '#' || c = '\n' || c = '\r' then
        match afterLine? line with
        | some more => readLines bound n d more
        | none => none
      else
        match readSetting bound d line with
        | some (d, more) => readLines bound n d more
        | none => none

/-- The entries of the table at the root of a document, which a byte order mark may begin. -/
def parse? (text : String) : Option Entries :=
  let cs := match text.toList with
    | c :: rest => if c = '\ufeff' then rest else c :: rest
    | [] => []
  let bound := cs.length + 1
  readLines bound bound {} cs

end GoBuild.Toml
