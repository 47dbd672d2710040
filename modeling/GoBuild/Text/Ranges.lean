/-!
# Ranges of code points

A character class is a list of closed intervals of code points in increasing order. A look-up stops
at the first interval that reaches the character, which is why the order matters: a table out of
order would miss characters.
-/

namespace GoBuild.Text

/-- Closed intervals of code points, in increasing order. -/
abbrev CodeRanges := List (Nat × Nat)

/-- Some interval holds the code point `n`: the first interval whose end reaches `n` decides. -/
def CodeRanges.hasCode : CodeRanges → Nat → Bool
  | [], _ => false
  | (lo, hi) :: rest, n => if n ≤ hi then decide (lo ≤ n) else CodeRanges.hasCode rest n

/-- Some interval holds the character `c`. -/
def CodeRanges.has (rs : CodeRanges) (c : Char) : Bool := rs.hasCode c.toNat

theorem CodeRanges.hasCode_cons_of_le {lo hi n : Nat} (h : n ≤ hi) (rest : CodeRanges) :
    CodeRanges.hasCode ((lo, hi) :: rest) n = decide (lo ≤ n) := by
  simp [CodeRanges.hasCode, h]

theorem CodeRanges.hasCode_cons_of_lt {lo hi n : Nat} (h : hi < n) (rest : CodeRanges) :
    CodeRanges.hasCode ((lo, hi) :: rest) n = CodeRanges.hasCode rest n := by
  simp [CodeRanges.hasCode, Nat.not_le.2 h]

end GoBuild.Text
