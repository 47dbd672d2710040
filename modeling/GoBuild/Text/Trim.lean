/-!
# Trimming and marked beginnings

Operations on lists of characters that the readers of lines share: taking blanks off either end
(`trimStart`, `trimEnd`, `trim`), taking a fixed beginning off (`after?`), and cutting a text into
lines (`lines`).
-/

namespace GoBuild.Text

variable {α : Type}

/-- The list without the elements at its front that satisfy `p`. -/
def trimStart (p : α → Bool) (xs : List α) : List α := xs.dropWhile p

/-- The list without the elements at its back that satisfy `p`. -/
def trimEnd (p : α → Bool) (xs : List α) : List α := (xs.reverse.dropWhile p).reverse

/-- The list without the elements at either end that satisfy `p`. -/
def trim (p : α → Bool) (xs : List α) : List α := trimEnd p (trimStart p xs)

/-- What follows the beginning `mark`, if the list begins with it. -/
def after? [DecidableEq α] : List α → List α → Option (List α)
  | [], xs => some xs
  | _ :: _, [] => none
  | m :: mark, x :: xs => if m = x then after? mark xs else none

theorem after?_eq_some_iff [DecidableEq α] {mark xs rest : List α} :
    after? mark xs = some rest ↔ xs = mark ++ rest := by
  induction mark generalizing xs with
  | nil => simp [after?, eq_comm]
  | cons m mark ih =>
    cases xs with
    | nil => simp [after?]
    | cons x xs =>
      by_cases h : m = x
      · simp [after?, h, ih]
      · simp [after?, h, Ne.symm h]

/-- The lines of a text, without their newlines; a newline at the very end opens no further line. -/
def lines (text : List Char) : List (List Char) :=
  let parts := text.splitOn '\n'
  if parts.getLast? = some [] then parts.dropLast else parts

end GoBuild.Text
