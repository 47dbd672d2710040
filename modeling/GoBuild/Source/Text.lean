import GoBuild.Text.Utf8

/-!
# The text of a source file

A source file is a list of bytes. Its readers work on its text: the bytes read as UTF-8 with
replacement characters, without the byte order mark that may begin it.
-/

namespace GoBuild.Source

/-- The character that may begin a file to tell its byte order. -/
def byteOrderMark : Char := '\ufeff'

/-- The text without a byte order mark at its beginning. -/
def dropMark : List Char → List Char
  | [] => []
  | c :: cs => if c = byteOrderMark then cs else c :: cs

/-- The text of a source file. -/
def text (content : List UInt8) : List Char := dropMark (Text.decodeLossy content)

end GoBuild.Source
