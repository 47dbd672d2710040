import GoBuild.Json.Basic

/-!
# Tokens of JSON texts

A JSON text is cut into tokens by a machine (`Lexer`) folded over its characters: punctuation, strings
with their escapes read, and words, which are runs of characters between blanks, punctuation and
quotes. A word has to be one of the three names or a number.
-/

namespace GoBuild.Json

/-- A token of a JSON text. -/
inductive Token where
  | openObject
  | closeObject
  | openArray
  | closeArray
  | colon
  | comma
  | null
  | bool (value : Bool)
  | number (text : List Char)
  /-- A string; none if it holds half of a surrogate pair without the other half. -/
  | string (text : Option String)

/-- A piece of a string: a character, or the code unit of an escape with four digits. -/
inductive Piece where
  | char (c : Char)
  | unit (code : Nat)

/-- The code unit is the first half of a surrogate pair. -/
def isHighSurrogate (code : Nat) : Bool := 0xd800 ≤ code && code < 0xdc00

/-- The code unit is the second half of a surrogate pair. -/
def isLowSurrogate (code : Nat) : Bool := 0xdc00 ≤ code && code < 0xe000

/-- The character of a surrogate pair. -/
def ofSurrogates (high low : Nat) : Char :=
  Char.ofNat (0x10000 + (high - 0xd800) * 0x400 + (low - 0xdc00))

/-- The characters of the pieces of a string, last piece first, before those already read. A second
half is read only with the first half before it. -/
def textOfReversed (read : List Char) : List Piece → Option (List Char)
  | [] => some read
  | .char c :: rest => textOfReversed (c :: read) rest
  | .unit low :: .unit high :: rest =>
    if isLowSurrogate low then
      if isHighSurrogate high then textOfReversed (ofSurrogates high low :: read) rest else none
    else if isHighSurrogate low then none
    else textOfReversed (Char.ofNat low :: read) (.unit high :: rest)
  | .unit code :: rest =>
    if isLowSurrogate code || isHighSurrogate code then none
    else textOfReversed (Char.ofNat code :: read) rest

/-- The value of a hexadecimal digit. -/
def hexValue? (c : Char) : Option Nat :=
  if c.isDigit then some (c.toNat - '0'.toNat)
  else if 'a' ≤ c && c ≤ 'f' then some (c.toNat - 'a'.toNat + 10)
  else if 'A' ≤ c && c ≤ 'F' then some (c.toNat - 'A'.toNat + 10)
  else none

/-- The character that an escape of one letter stands for. -/
def escaped? (letter : Char) : Option Char :=
  if letter = '\"' || letter = '\\' || letter = '/' then some letter
  else if letter = 'b' then some '\x08'
  else if letter = 'f' then some '\x0c'
  else if letter = 'n' then some '\n'
  else if letter = 'r' then some '\r'
  else if letter = 't' then some '\t'
  else none

/-- The characters are an exponent, or nothing. -/
def isExponent : List Char → Bool
  | [] => true
  | e :: rest =>
    let digits := match rest with
      | sign :: more => if sign = '+' || sign = '-' then more else rest
      | [] => []
    (e = 'e' || e = 'E') && !digits.isEmpty && digits.all Char.isDigit

/-- The characters are a fraction or an exponent, or both or nothing. -/
def isFraction : List Char → Bool
  | '.' :: rest => !(rest.takeWhile Char.isDigit).isEmpty && isExponent (rest.dropWhile Char.isDigit)
  | rest => isExponent rest

/-- The characters are a number without a sign. -/
def isUnsigned (word : List Char) : Bool :=
  match word.takeWhile Char.isDigit with
  | [] => false
  | first :: more => (first ≠ '0' || more.isEmpty) && isFraction (word.dropWhile Char.isDigit)

/-- The characters are a number. -/
def isNumber : List Char → Bool
  | '-' :: rest => isUnsigned rest
  | word => isUnsigned word

/-- The token that a word is. -/
def Token.ofWord? (word : List Char) : Option Token :=
  if word = ['n', 'u', 'l', 'l'] then some .null
  else if word = ['t', 'r', 'u', 'e'] then some (.bool true)
  else if word = ['f', 'a', 'l', 's', 'e'] then some (.bool false)
  else if isNumber word then some (.number word)
  else none

/-- The token that a character is. -/
def Token.ofPunctuation? (c : Char) : Option Token :=
  if c = '\x7b' then some .openObject
  else if c = '\x7d' then some .closeObject
  else if c = '[' then some .openArray
  else if c = ']' then some .closeArray
  else if c = ':' then some .colon
  else if c = ',' then some .comma
  else none

/-- The character may stand between tokens. -/
def isSpace (c : Char) : Bool := c = ' ' || c = '\t' || c = '\n' || c = '\r'

/-- What the lexer is in the middle of; what is read of it stands last piece first. -/
inductive Mode where
  | between
  | word (read : List Char)
  | string (read : List Piece)
  /-- After the backslash of an escape. -/
  | escape (read : List Piece)
  /-- In an escape of which `missing` hexadecimal digits are to come. -/
  | hex (read : List Piece) (missing : Nat) (code : Nat)

/-- The state of cutting: the tokens cut off, last one first, and what comes after them. -/
structure Lexer where
  tokens : List Token := []
  mode : Mode := .between

namespace Lexer

/-- The state after the word that is being read. -/
def endWord? (tokens : List Token) (read : List Char) : Option (List Token) :=
  (Token.ofWord? read.reverse).map (· :: tokens)

/-- Reads a character between tokens. -/
def stepBetween (tokens : List Token) (c : Char) : Lexer :=
  if isSpace c then ⟨tokens, .between⟩
  else if c = '\"' then ⟨tokens, .string []⟩
  else
    match Token.ofPunctuation? c with
    | some t => ⟨t :: tokens, .between⟩
    | none => ⟨tokens, .word [c]⟩

/-- The character ends a word. -/
def endsWord (c : Char) : Bool := isSpace c || c = '\"' || (Token.ofPunctuation? c).isSome

/-- Reads one character. -/
def step (l : Lexer) (c : Char) : Option Lexer :=
  match l.mode with
  | .between => some (stepBetween l.tokens c)
  | .word read =>
    if endsWord c then (endWord? l.tokens read).map fun tokens => stepBetween tokens c
    else some ⟨l.tokens, .word (c :: read)⟩
  | .string read =>
    if c = '\"' then
      some ⟨.string ((textOfReversed [] read).map String.ofList) :: l.tokens, .between⟩
    else if c = '\\' then some ⟨l.tokens, .escape read⟩
    else if c.toNat < 0x20 then none
    else some ⟨l.tokens, .string (.char c :: read)⟩
  | .escape read =>
    if c = 'u' then some ⟨l.tokens, .hex read 4 0⟩
    else (escaped? c).map fun e => ⟨l.tokens, .string (.char e :: read)⟩
  | .hex read missing code => do
    let digit ← hexValue? c
    let value := code * 16 + digit
    if missing = 1 then return ⟨l.tokens, .string (.unit value :: read)⟩
    else return ⟨l.tokens, .hex read (missing - 1) value⟩

/-- The tokens of the whole text, first one first. -/
def finish (l : Lexer) : Option (List Token) :=
  match l.mode with
  | .between => some l.tokens.reverse
  | .word read => (endWord? l.tokens read).map List.reverse
  | .string _ | .escape _ | .hex .. => none

end Lexer

/-- The tokens of a JSON text. -/
def tokens? (text : List Char) : Option (List Token) := do
  let l ← text.foldlM Lexer.step {}
  l.finish

end GoBuild.Json
