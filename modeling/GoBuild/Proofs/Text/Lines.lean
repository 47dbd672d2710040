import GoBuild.Text.Blank
import Mathlib.Data.List.DropRight
import Mathlib.Data.List.Induction

/-!
# Lines and words

How a text falls into pieces: a line is cut off at its newline (`lines_append_newline`), words with a
space between them are found again (`words_intercalate`), and trimming leaves a text alone that has
no blanks at its ends (`Tight`).
-/

namespace GoBuild.Text

/-! ### Ends of a text -/

/-- The list is not empty, and neither its first nor its last element satisfies `p`. -/
structure Tight {α : Type} (p : α → Bool) (xs : List α) : Prop where
  first : ∃ x rest, xs = x :: rest ∧ p x = false
  last : ∃ rest x, xs = rest ++ [x] ∧ p x = false

section

variable {α : Type} {p : α → Bool} {x : α}

theorem trimStart_cons_of_pos (hx : p x = true) (xs : List α) :
    trimStart p (x :: xs) = trimStart p xs := List.dropWhile_cons_of_pos hx

theorem trimStart_cons_of_neg (hx : p x = false) (xs : List α) : trimStart p (x :: xs) = x :: xs :=
  List.dropWhile_cons_of_neg (by simp [hx])

theorem trimEnd_concat_of_pos (hx : p x = true) (xs : List α) :
    trimEnd p (xs ++ [x]) = trimEnd p xs := by
  simp [trimEnd, hx]

theorem trimEnd_concat_of_neg (hx : p x = false) (xs : List α) :
    trimEnd p (xs ++ [x]) = xs ++ [x] := by
  simp [trimEnd, hx]

theorem trimEnd_prefix (xs : List α) : trimEnd p xs <+: xs := List.rdropWhile_prefix p xs

theorem trimEnd_append_cons_of_neg (hx : p x = false) (front xs : List α) :
    trimEnd p (front ++ x :: xs) = front ++ x :: trimEnd p xs := by
  simp only [trimEnd, List.reverse_append, List.reverse_cons, List.append_assoc,
    List.singleton_append, List.dropWhile_append]
  split
  · rename_i hempty
    rw [List.isEmpty_iff.1 hempty, List.dropWhile_cons_of_neg (by simp [hx])]
    simp
  · simp

theorem trimEnd_map {β : Type} (f : β → α) (xs : List β) :
    trimEnd p (xs.map f) = (trimEnd (p ∘ f) xs).map f := by
  simp [trimEnd, ← List.map_reverse, List.dropWhile_map]

theorem trim_concat_of_pos (hx : p x = true) (xs : List α) : trim p (xs ++ [x]) = trim p xs := by
  rw [trim, trim, trimStart, trimStart, List.dropWhile_append]
  split
  · rename_i hempty
    rw [List.isEmpty_iff.1 hempty, List.dropWhile_cons_of_pos hx]
    rfl
  · exact trimEnd_concat_of_pos hx _

theorem trim_cons_of_neg (hx : p x = false) (xs : List α) :
    trim p (x :: xs) = x :: trimEnd p xs := by
  rw [trim, trimStart_cons_of_neg hx]
  exact trimEnd_append_cons_of_neg hx [] xs

theorem trim_append_of_forall_front {front : List α} (h : ∀ x ∈ front, p x = true) (xs : List α) :
    trim p (front ++ xs) = trim p xs := by
  rw [trim, trimStart, List.dropWhile_append_of_pos h, trim, trimStart]

theorem trim_append_of_forall_back {back : List α} (h : ∀ x ∈ back, p x = true) (xs : List α) :
    trim p (xs ++ back) = trim p xs := by
  induction back using List.reverseRecOn with
  | nil => rw [List.append_nil]
  | append_singleton back x ih =>
    rw [List.forall_mem_append, List.forall_mem_singleton] at h
    rw [← List.append_assoc, trim_concat_of_pos h.2, ih h.1]

theorem exists_eq_trimEnd_append (xs : List α) :
    ∃ back, xs = trimEnd p xs ++ back ∧ ∀ x ∈ back, p x = true := by
  refine ⟨(xs.reverse.takeWhile p).reverse, ?_, fun x hx => ?_⟩
  · rw [trimEnd, ← List.reverse_append, List.takeWhile_append_dropWhile, List.reverse_reverse]
  · exact List.mem_takeWhile_imp (List.mem_reverse.1 hx)

/-- Trimming takes nothing off but what satisfies `p`. -/
theorem exists_eq_append_trim_append (xs : List α) :
    ∃ front back, xs = front ++ trim p xs ++ back ∧ (∀ x ∈ front, p x = true) ∧
      ∀ x ∈ back, p x = true := by
  obtain ⟨back, hback, hp⟩ := exists_eq_trimEnd_append (p := p) (trimStart p xs)
  refine ⟨xs.takeWhile p, back, ?_, fun x hx => List.mem_takeWhile_imp hx, hp⟩
  rw [trim, List.append_assoc, ← hback, trimStart, List.takeWhile_append_dropWhile]

theorem mem_of_mem_trim {xs : List α} (h : x ∈ trim p xs) : x ∈ xs :=
  (List.dropWhile_suffix _).subset ((Text.trimEnd_prefix _).subset h)

theorem trim_trimEnd (xs : List α) : trim p (trimEnd p xs) = trim p xs := by
  obtain ⟨back, hback, hp⟩ := exists_eq_trimEnd_append (p := p) xs
  rw [← trim_append_of_forall_back hp, ← hback]

end

namespace Tight

variable {α : Type} {p q : α → Bool} {xs ys : List α}

theorem of_forall (hne : xs ≠ []) (h : ∀ x ∈ xs, p x = false) : Tight p xs where
  first := by
    obtain ⟨x, rest, rfl⟩ := List.exists_cons_of_ne_nil hne
    exact ⟨x, rest, rfl, h x List.mem_cons_self⟩
  last := ⟨xs.dropLast, xs.getLast hne, (List.dropLast_concat_getLast hne).symm,
    h _ (List.getLast_mem hne)⟩

theorem of_all (hne : xs ≠ []) (h : xs.all (!p ·) = true) : Tight p xs :=
  of_forall hne fun x hx => by simpa using List.all_eq_true.1 h x hx

theorem ne_nil (h : Tight p xs) : xs ≠ [] := by
  obtain ⟨x, rest, rfl, -⟩ := h.first
  exact List.cons_ne_nil _ _

theorem append (hx : Tight p xs) (between : List α) (hy : Tight p ys) :
    Tight p (xs ++ between ++ ys) where
  first := by
    obtain ⟨x, rest, rfl, hp⟩ := hx.first
    exact ⟨x, rest ++ between ++ ys, rfl, hp⟩
  last := by
    obtain ⟨rest, y, rfl, hp⟩ := hy.last
    exact ⟨xs ++ between ++ rest, y, by simp, hp⟩

theorem intercalate {sep : List α} {xss : List (List α)} (hne : xss ≠ [])
    (h : ∀ xs ∈ xss, Tight p xs) : Tight p (sep.intercalate xss) := by
  induction xss with
  | nil => exact absurd rfl hne
  | cons xs xss ih =>
    have hxs : Tight p xs := h xs List.mem_cons_self
    cases xss with
    | nil => rwa [List.intercalate_singleton]
    | cons ys yss =>
      rw [List.intercalate_cons_cons]
      exact hxs.append sep (ih (List.cons_ne_nil _ _) fun zs hz => h zs (List.mem_cons_of_mem _ hz))

theorem mono (hpq : ∀ x, q x = true → p x = true) (h : Tight p xs) : Tight q xs := by
  have hfalse : ∀ x, p x = false → q x = false := fun x hp =>
    Bool.eq_false_iff.2 fun hq => by rw [hpq x hq] at hp; cases hp
  obtain ⟨⟨x, rest, hx, hpx⟩, rest', y, hy, hpy⟩ := h
  exact ⟨⟨x, rest, hx, hfalse x hpx⟩, rest', y, hy, hfalse y hpy⟩

theorem trimStart_eq (h : Tight p xs) : trimStart p xs = xs := by
  obtain ⟨x, rest, rfl, hp⟩ := h.first
  exact List.dropWhile_cons_of_neg (by simp [hp])

theorem trimEnd_append_eq (h : Tight p xs) (before : List α) :
    trimEnd p (before ++ xs) = before ++ xs := by
  obtain ⟨rest, x, rfl, hp⟩ := h.last
  have hkeep : (x :: (rest.reverse ++ before.reverse)).dropWhile p =
      x :: (rest.reverse ++ before.reverse) := List.dropWhile_cons_of_neg (by simp [hp])
  simp [trimEnd, hkeep]

theorem trim_eq (h : Tight p xs) : trim p xs = xs := by
  rw [trim, h.trimStart_eq]
  exact h.trimEnd_append_eq []

/-- Something to be trimmed off stands before the list. -/
theorem trim_cons_eq (h : Tight p xs) {x : α} (hx : p x = true) : trim p (x :: xs) = xs := by
  rw [trim, trimStart, List.dropWhile_cons_of_pos hx]
  exact h.trim_eq

end Tight

theorem forall_mem_intercalate {α : Type} {P : α → Prop} {sep : List α} {xss : List (List α)}
    (hsep : ∀ x ∈ sep, P x) (h : ∀ xs ∈ xss, ∀ x ∈ xs, P x) : ∀ x ∈ sep.intercalate xss, P x := by
  induction xss with
  | nil => exact fun x hx => absurd hx List.not_mem_nil
  | cons xs xss ih =>
    rw [List.forall_mem_cons] at h
    cases xss with
    | nil =>
      rw [List.intercalate_singleton]
      exact h.1
    | cons ys yss =>
      simp only [List.intercalate_cons_cons, List.forall_mem_append]
      exact ⟨⟨h.1, hsep⟩, ih h.2⟩

/-- Pieces between marks that none of them holds are found again. -/
theorem eq_of_intercalate_eq {α : Type} [DecidableEq α] {mark : α} {xs ys : List (List α)}
    (hx : ∀ x ∈ xs, mark ∉ x) (hy : ∀ y ∈ ys, mark ∉ y) (hxs : xs ≠ []) (hys : ys ≠ [])
    (h : [mark].intercalate xs = [mark].intercalate ys) : xs = ys := by
  have hsplit := congrArg (List.splitOn mark) h
  rwa [List.splitOn_intercalate mark hx hxs, List.splitOn_intercalate mark hy hys] at hsplit

theorem Tight.isAsciiBlank {text : List Char} (h : Tight isBlank text) : Tight isAsciiBlank text :=
  h.mono fun _ => isBlank_of_isAsciiBlank

/-! ### Runs -/

section Runs

variable {α : Type} {p : α → Bool} {run rest : List α}

theorem takeWhile_append_eq (hrun : ∀ x ∈ run, p x = true) (hrest : ∀ x ∈ rest.head?, p x = false) :
    (run ++ rest).takeWhile p = run := by
  have hstop : rest.takeWhile p = [] := by
    cases rest with
    | nil => rfl
    | cons x xs => exact List.takeWhile_cons_of_neg (by simp [hrest x rfl])
  rw [List.takeWhile_append_of_pos hrun, hstop, List.append_nil]

theorem dropWhile_append_eq (hrun : ∀ x ∈ run, p x = true) (hrest : ∀ x ∈ rest.head?, p x = false) :
    (run ++ rest).dropWhile p = rest := by
  have hstop : rest.dropWhile p = rest := by
    cases rest with
    | nil => rfl
    | cons x xs => exact List.dropWhile_cons_of_neg (by simp [hrest x rfl])
  rw [List.dropWhile_append_of_pos hrun, hstop]

theorem eq_false_of_mem_head?_dropWhile {x : α} (h : x ∈ (run.dropWhile p).head?) :
    p x = false := by
  have := List.head?_dropWhile_not p run
  rw [Option.mem_def.1 h] at this
  simpa using this

theorem takeWhile_eq_iff {xs : List α} :
    xs.takeWhile p = run ↔ ∃ rest, xs = run ++ rest ∧ (∀ x ∈ run, p x = true) ∧
      ∀ x ∈ rest.head?, p x = false := by
  constructor
  · rintro rfl
    exact ⟨xs.dropWhile p, List.takeWhile_append_dropWhile.symm, fun x => List.mem_takeWhile_imp,
      fun x => eq_false_of_mem_head?_dropWhile⟩
  · rintro ⟨rest, rfl, hrun, hrest⟩
    exact takeWhile_append_eq hrun hrest

end Runs

/-! ### Pieces of a text -/

/-- The pieces between the elements that satisfy `p` are made of the other elements. -/
theorem mem_of_mem_splitOnP {α : Type} {p : α → Bool} {xs piece : List α}
    (h : piece ∈ xs.splitOnP p) : ∀ x ∈ piece, x ∈ xs ∧ p x = false := by
  induction xs generalizing piece with
  | nil =>
    rw [List.splitOnP_nil, List.mem_singleton] at h
    simp [h]
  | cons x xs ih =>
    rw [List.splitOnP_cons_eq_if_modifyHead] at h
    obtain ⟨first, more, hsplit⟩ := List.exists_cons_of_ne_nil (List.splitOnP_ne_nil p xs)
    have hrest : ∀ piece ∈ first :: more, ∀ y ∈ piece, y ∈ x :: xs ∧ p y = false :=
      fun piece hpiece y hy =>
        let hmem := ih (hsplit ▸ hpiece) y hy
        ⟨List.mem_cons_of_mem _ hmem.1, hmem.2⟩
    rw [List.forall_mem_cons] at hrest
    split at h
    · rw [hsplit, List.mem_cons] at h
      rcases h with rfl | h
      · simp
      · exact (List.mem_cons.1 h).elim (fun heq => heq ▸ hrest.1) (hrest.2 piece)
    · rename_i hx
      rw [hsplit, List.modifyHead_cons, List.mem_cons] at h
      rcases h with rfl | h
      · rw [List.forall_mem_cons]
        exact ⟨⟨List.mem_cons_self, by simpa using hx⟩, hrest.1⟩
      · exact hrest.2 piece h

theorem mem_of_mem_splitOn {text piece : List Char} {mark : Char} (h : piece ∈ text.splitOn mark) :
    ∀ c ∈ piece, c ∈ text ∧ c ≠ mark := by
  intro c hc
  obtain ⟨hmem, hne⟩ := mem_of_mem_splitOnP h c hc
  exact ⟨hmem, by simpa using hne⟩

/-! ### Lines -/

theorem newline_not_mem_of_mem_lines {text line : List Char} (h : line ∈ lines text) :
    '\n' ∉ line := by
  have hpiece : line ∈ text.splitOn '\n' := by
    simp only [lines] at h
    split at h
    · exact List.dropLast_subset _ h
    · exact h
  exact fun hmem => (mem_of_mem_splitOn hpiece _ hmem).2 rfl

theorem lines_of_not_mem {line : List Char} (h : '\n' ∉ line) (hne : line ≠ []) :
    lines line = [line] := by
  simp [lines, List.splitOn_eq_singleton h, hne]

theorem lines_append_newline {line : List Char} (h : '\n' ∉ line) (rest : List Char) :
    lines (line ++ '\n' :: rest) = line :: lines rest := by
  have hsplit : (line ++ '\n' :: rest).splitOn '\n' = line :: rest.splitOn '\n' :=
    List.splitOn_append_cons_self_of_not_mem h rest
  have hne : rest.splitOn '\n' ≠ [] := List.splitOn_ne_nil _ _
  have hlast : (line :: rest.splitOn '\n').getLast? = (rest.splitOn '\n').getLast? := by
    obtain ⟨part, parts, hparts⟩ := List.exists_cons_of_ne_nil hne
    rw [hparts, List.getLast?_cons_cons]
  simp only [lines, hsplit, hlast]
  split
  · exact List.dropLast_cons_of_ne_nil hne
  · rfl

/-- The first line of a text goes on as the text does, as far as it goes. -/
theorem exists_lines_eq_cons {front : List Char} (h : '\n' ∉ front) {c : Char} (hc : c ≠ '\n')
    (rest : List Char) :
    ∃ line more, lines (front ++ c :: rest) = (front ++ c :: line) :: more ∧
      ∀ d, line.head? = some d → rest.head? = some d := by
  by_cases hmem : '\n' ∈ rest
  · obtain ⟨line, rest, rfl, hline⟩ := List.eq_append_cons_of_mem hmem
    refine ⟨line, lines rest, ?_, fun d hd => by simp [hd]⟩
    rw [← lines_append_newline (by simp [h, hline, Ne.symm hc]), List.append_assoc, List.cons_append]
  · exact ⟨rest, [], lines_of_not_mem (by simp [h, hmem, Ne.symm hc]) (by simp), fun _ => id⟩

/-- The lines of several lines and of what follows them. -/
theorem lines_flatMap_newline {ls : List (List Char)} (h : ∀ line ∈ ls, '\n' ∉ line)
    (rest : List Char) : lines (ls.flatMap (· ++ ['\n']) ++ rest) = ls ++ lines rest := by
  induction ls with
  | nil => rfl
  | cons line ls ih =>
    have hline : '\n' ∉ line := h line List.mem_cons_self
    rw [List.flatMap_cons, List.append_assoc, List.append_assoc, List.singleton_append,
      lines_append_newline hline, ih fun l hl => h l (List.mem_cons_of_mem _ hl), List.cons_append]

/-! ### Words -/

/-- A blank cuts a text in two. -/
theorem words_append_cons {c : Char} (hc : isBlank c = true) (xs ys : List Char) :
    words (xs ++ c :: ys) = words xs ++ words ys := by
  rw [words, List.splitOnP_append_cons xs ys hc, List.filter_append]
  rfl

theorem words_cons_of_isBlank {c : Char} (hc : isBlank c = true) (cs : List Char) :
    words (c :: cs) = words cs :=
  words_append_cons hc [] cs

section Words

variable {w : List Char} (hne : w ≠ []) (hfree : ∀ c ∈ w, isBlank c = false)
include hne hfree

theorem words_eq_singleton : words w = [w] := by
  rw [words, List.splitOnP_eq_singleton hfree]
  simp [hne]

/-- A word ends at a blank or with the text. -/
theorem words_append {rest : List Char} (hrest : ∀ c ∈ rest.head?, isBlank c = true) :
    words (w ++ rest) = w :: words rest := by
  cases rest with
  | nil => rw [List.append_nil, words_eq_singleton hne hfree]; rfl
  | cons c rest =>
    have hc : isBlank c = true := hrest c rfl
    rw [words_append_cons hc, words_eq_singleton hne hfree, words_cons_of_isBlank hc]
    rfl

end Words

/-- Words with a space between them are found again. -/
theorem words_intercalate {ws : List (List Char)} (hne : ∀ w ∈ ws, w ≠ [])
    (hfree : ∀ w ∈ ws, ∀ c ∈ w, isBlank c = false) : words ([' '].intercalate ws) = ws := by
  induction ws with
  | nil => rfl
  | cons w ws ih =>
    rw [List.forall_mem_cons] at hne hfree
    cases ws with
    | nil => rw [List.intercalate_singleton, words_eq_singleton hne.1 hfree.1]
    | cons v vs =>
      have hblank : isBlank ' ' = true := rfl
      rw [List.intercalate_cons_cons, List.append_assoc, List.singleton_append,
        words_append hne.1 hfree.1 (by simpa using hblank), words_cons_of_isBlank hblank,
        ih hne.2 hfree.2]

end GoBuild.Text
