import GoBuild.Text.Ranges
import GoBuild.Text.Trim

/-!
# Blanks

Two notions of blank space: the Unicode property White_Space (`isBlank`), by which lines are trimmed
and cut into words, and the five ASCII blanks (`isAsciiBlank`), by which the header of a source file
is scanned. The vertical tab is a blank of the first kind only.
-/

namespace GoBuild.Text

/-- The closed intervals of the property White_Space. -/
def blankRanges : CodeRanges :=
  [(0x9, 0xd), (0x20, 0x20), (0x85, 0x85), (0xa0, 0xa0), (0x1680, 0x1680), (0x2000, 0x200a),
   (0x2028, 0x2029), (0x202f, 0x202f), (0x205f, 0x205f), (0x3000, 0x3000)]

/-- The character has the property White_Space. -/
def isBlank (c : Char) : Bool := blankRanges.has c

/-- The character is a space, tab, newline, form feed or carriage return. -/
def isAsciiBlank (c : Char) : Bool :=
  c = ' ' || c = '\t' || c = '\n' || c = '\x0c' || c = '\r'

theorem isBlank_of_isAsciiBlank {c : Char} (h : isAsciiBlank c = true) : isBlank c = true := by
  simp only [isAsciiBlank, Bool.or_eq_true, decide_eq_true_eq] at h
  rcases h with (((rfl | rfl) | rfl) | rfl) | rfl <;> rfl

/-- The maximal runs of characters that are not blank. -/
def words (text : List Char) : List (List Char) :=
  (text.splitOnP isBlank).filter fun word => !word.isEmpty

end GoBuild.Text
