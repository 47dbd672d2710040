/-!
# Reading bytes as text

Bytes are read as UTF-8, and what is not UTF-8 is replaced: each longest run of bytes that begins
some character but does not complete it becomes one replacement character, and so does each byte
that can begin none. The reader is a state machine (`Reader`) folded over the bytes. Its state is the
text read so far and the character in progress, together with the range in which the next byte has
to lie; the range is narrower than that of all continuation bytes after some lead bytes, which
shuts out overlong forms, surrogates and code points past the last.
-/

namespace GoBuild.Text

/-- The character that stands for bytes that are no text. -/
def replacement : Char := '\ufffd'

/-- A character in progress: the bits read so far, how many bytes are missing, and the closed range
in which the next one lies. -/
structure Partial where
  bits : Nat
  missing : Nat
  lo : UInt8
  hi : UInt8

/-- What a byte at the beginning of a character says. -/
inductive Lead where
  /-- The byte is an ASCII character. -/
  | single (c : Char)
  /-- The byte begins a longer character. -/
  | opens (p : Partial)
  /-- The byte begins no character. -/
  | invalid

/-- The reading of `b` as the first byte of a character. -/
def Lead.ofByte (b : UInt8) : Lead :=
  if b < 0x80 then .single (Char.ofNat b.toNat)
  else if b < 0xc2 then .invalid
  else if b < 0xe0 then .opens ⟨b.toNat - 0xc0, 1, 0x80, 0xbf⟩
  else if b = 0xe0 then .opens ⟨0, 2, 0xa0, 0xbf⟩
  else if b = 0xed then .opens ⟨0xd, 2, 0x80, 0x9f⟩
  else if b < 0xf0 then .opens ⟨b.toNat - 0xe0, 2, 0x80, 0xbf⟩
  else if b = 0xf0 then .opens ⟨0, 3, 0x90, 0xbf⟩
  else if b < 0xf4 then .opens ⟨b.toNat - 0xf0, 3, 0x80, 0xbf⟩
  else if b = 0xf4 then .opens ⟨4, 3, 0x80, 0x8f⟩
  else .invalid

/-- The state of reading: the characters read, last one first, and the character in progress. -/
structure Reader where
  read : List Char := []
  pending : Option Partial := none

namespace Reader

/-- Reads `b` where a character begins, after the characters `read`. -/
def begin (read : List Char) (b : UInt8) : Reader :=
  match Lead.ofByte b with
  | .single c => ⟨c :: read, none⟩
  | .opens p => ⟨read, some p⟩
  | .invalid => ⟨replacement :: read, none⟩

/-- Reads one byte. A byte that cannot go on with the character in progress replaces that character
and is read afresh. -/
def step (r : Reader) (b : UInt8) : Reader :=
  match r.pending with
  | none => begin r.read b
  | some p =>
    if p.lo ≤ b ∧ b ≤ p.hi then
      let bits := p.bits * 64 + (b.toNat - 0x80)
      if p.missing = 1 then ⟨Char.ofNat bits :: r.read, none⟩
      else ⟨r.read, some ⟨bits, p.missing - 1, 0x80, 0xbf⟩⟩
    else begin (replacement :: r.read) b

/-- The text read, with a replacement for a character that the end cut off. -/
def finish (r : Reader) : List Char :=
  match r.pending with
  | none => r.read.reverse
  | some _ => (replacement :: r.read).reverse

end Reader

/-- The bytes as text, with replacement characters for what is not UTF-8. -/
def decodeLossy (bytes : List UInt8) : List Char := (bytes.foldl Reader.step {}).finish

/-- The UTF-8 form of a text. -/
def encode (text : List Char) : List UInt8 := text.flatMap String.utf8EncodeChar

/-- The text of which the bytes are the UTF-8 form, if there is one. -/
def decode? (bytes : List UInt8) : Option String := String.fromUTF8? ⟨bytes.toArray⟩

/-- The number of bytes that the characters take in UTF-8. -/
def utf8Length (cs : List Char) : Nat := cs.foldr (fun c n => c.utf8Size + n) 0

@[simp] theorem utf8Length_nil : utf8Length [] = 0 := rfl

@[simp] theorem utf8Length_cons (c : Char) (cs : List Char) :
    utf8Length (c :: cs) = c.utf8Size + utf8Length cs := rfl

theorem utf8Length_append (xs ys : List Char) :
    utf8Length (xs ++ ys) = utf8Length xs + utf8Length ys := by
  induction xs with
  | nil => simp
  | cons x xs ih => simp [ih, Nat.add_assoc]

end GoBuild.Text
