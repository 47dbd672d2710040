import GoBuild.Proofs.Source.Bytes
import GoBuild.Source.Package

/-!
# The leading region of a source file

The bytes of every source file are pieces, which are blanks and comments, and an ending, which is the
first code or a comment that is not closed (`Region.exists_bytes_eq`). Skipping blanks and comments
leaves the code (`Region.skipBlanksAndComments_bytes`). Of the comments of a region, those that are
the first thing on their line are singled out (`Region.comments`), and what is inside its block
comments and after the first byte of code can be left out (`Region.outline`).
-/

namespace GoBuild.Source

def slash : UInt8 := 0x2f

def star : UInt8 := 0x2a

/-- The bytes that close a block comment. -/
def closing : List UInt8 := [star, slash]

/-- The bytes begin with neither a blank nor a comment. -/
def startsCode : List UInt8 → Bool
  | [] => false
  | [b] => !isBlankByte b
  | b :: c :: _ => !isBlankByte b && !(b = slash && (c = slash || c = star))

/-- A blank, a line comment with its newline, or a closed block comment. -/
inductive Piece where
  | blank (b : UInt8) (isBlank : isBlankByte b = true)
  | line (body : List UInt8) (oneLine : newline ∉ body)
  | block (body : List UInt8) (isOpen : ¬ closing <:+: body)

/-- What stands after the pieces of a leading region: nothing, code, or a comment that runs to the
end of the file. -/
inductive Ending where
  | nothing
  | code (rest : List UInt8) (isCode : startsCode rest = true)
  | line (body : List UInt8) (oneLine : newline ∉ body)
  | block (body : List UInt8) (isOpen : ¬ closing <:+: body)

namespace Piece

def bytes : Piece → List UInt8
  | blank b _ => [b]
  | line body _ => slash :: slash :: (body ++ [newline])
  | block body _ => slash :: star :: (body ++ closing)

/-- The text of the piece. -/
def text : Piece → List Char
  | blank b _ => [Char.ofNat b.toNat]
  | line body _ => '/' :: '/' :: (Text.decodeLossy body ++ ['\n'])
  | block body _ => '/' :: '*' :: (Text.decodeLossy body ++ ['*', '/'])

/-- The piece with nothing inside a block comment. -/
def outline : Piece → Piece
  | block _ _ => block [] (by decide)
  | p => p

theorem text_ne_nil (p : Piece) : p.text ≠ [] := by
  cases p <;> exact List.cons_ne_nil _ _

/-- No piece begins with the first byte of a byte order mark. -/
theorem bytes_append_ne (p : Piece) (bytes rest : List UInt8) :
    p.bytes ++ bytes ≠ 0xef :: rest := by
  cases p with
  | blank b hb =>
    intro h
    rw [(List.cons.inj h).1] at hb
    cases hb
  | line body hbody => simp [Piece.bytes, slash]
  | block body hbody => simp [Piece.bytes, slash]

end Piece

namespace Ending

def bytes : Ending → List UInt8
  | nothing => []
  | code rest _ => rest
  | line body _ => slash :: slash :: body
  | block body _ => slash :: star :: body

/-- The code. -/
def rest : Ending → List UInt8
  | code rest _ => rest
  | _ => []

/-- The ending with one byte of code and nothing inside a block comment. -/
def outline : Ending → Ending
  | code _ _ => code [0x70] (by decide)
  | block _ _ => block [] (by decide)
  | e => e

end Ending

/-- The bytes of a source file: blanks and comments, and what ends them. -/
structure Region where
  pieces : List Piece
  ending : Ending

/-- The line comments that are the first thing on their line; `fresh` tells whether only blanks stand
before the pieces on their line. -/
def freshComments (fresh : Bool) : List Piece → Ending → List (List UInt8)
  | .blank b _ :: pieces, e => freshComments (fresh || b = newline) pieces e
  | .line body _ :: pieces, e =>
    (if fresh then [slash :: slash :: body] else []) ++ freshComments true pieces e
  | .block _ _ :: pieces, e => freshComments false pieces e
  | [], .line body _ => if fresh then [slash :: slash :: body] else []
  | [], _ => []

namespace Region

def bytes (r : Region) : List UInt8 := r.pieces.flatMap Piece.bytes ++ r.ending.bytes

/-- The line comments that are the first thing on their line. -/
def comments (r : Region) : List (List UInt8) := freshComments true r.pieces r.ending

/-- The region with nothing inside its block comments and one byte of its code. -/
def outline (r : Region) : Region := ⟨r.pieces.map Piece.outline, r.ending.outline⟩

def cons (p : Piece) (r : Region) : Region := ⟨p :: r.pieces, r.ending⟩

theorem bytes_cons (p : Piece) (r : Region) : (cons p r).bytes = p.bytes ++ r.bytes := by
  simp [bytes, cons]

end Region

/-! ### Every file has a leading region -/

/-- The first place at which one element follows another, if there is any. -/
theorem exists_first_pair {α : Type} (a b : α) (xs : List α) :
    ¬ [a, b] <:+: xs ∨ ∃ front rest, xs = front ++ a :: b :: rest ∧ ¬ [a, b] <:+: front := by
  induction xs with
  | nil => exact .inl (by simp)
  | cons x xs ih =>
    by_cases hfirst : [a, b] <+: x :: xs
    · obtain ⟨rest, hrest⟩ := hfirst
      exact .inr ⟨[], rest, hrest.symm, by simp⟩
    · rcases ih with hnone | ⟨front, rest, rfl, hfront⟩
      · exact .inl fun h => (List.infix_cons_iff.1 h).elim hfirst hnone
      · refine .inr ⟨x :: front, rest, rfl, fun h => ?_⟩
        rcases List.infix_cons_iff.1 h with hstart | hwithin
        · exact hfirst (hstart.trans (List.prefix_append (x :: front) (a :: b :: rest)))
        · exact hfront hwithin

theorem startsCode_of_not {b : UInt8} {bytes : List UInt8} (hblank : isBlankByte b = false)
    (hcomment : ∀ c rest, b :: bytes = slash :: c :: rest → c ≠ slash ∧ c ≠ star) :
    startsCode (b :: bytes) = true := by
  cases bytes with
  | nil => simp [startsCode, hblank]
  | cons c rest =>
    simp only [startsCode, hblank, Bool.not_false, Bool.true_and, Bool.not_eq_true',
      Bool.and_eq_false_iff, decide_eq_false_iff_not, Bool.or_eq_false_iff]
    by_cases hb : b = slash
    · exact .inr (hcomment c rest (by rw [hb]))
    · exact .inl hb

theorem Region.exists_bytes_eq (bytes : List UInt8) : ∃ r : Region, r.bytes = bytes := by
  induction hlength : bytes.length using Nat.strong_induction_on generalizing bytes with
  | _ n ih =>
    have hpiece (p : Piece) (hp : p.bytes ≠ []) (rest : List UInt8) (h : bytes = p.bytes ++ rest) :
        ∃ r : Region, r.bytes = bytes := by
      have hshort : rest.length < n := by
        have := List.length_pos_iff.2 hp
        simp only [← hlength, h, List.length_append]
        omega
      obtain ⟨r, hr⟩ := ih rest.length hshort rest rfl
      exact ⟨.cons p r, by rw [Region.bytes_cons, hr, h]⟩
    rcases bytes with _ | ⟨b, bytes⟩
    · exact ⟨⟨[], .nothing⟩, rfl⟩
    cases hblank : isBlankByte b with
    | true => exact hpiece (.blank b hblank) (List.cons_ne_nil _ _) bytes rfl
    | false =>
      by_cases hline : ∃ rest, b :: bytes = slash :: slash :: rest
      · obtain ⟨rest, hrest⟩ := hline
        by_cases hnewline : newline ∈ rest
        · obtain ⟨body, rest, rfl, hbody⟩ := List.eq_append_cons_of_mem hnewline
          exact hpiece (.line body hbody) (List.cons_ne_nil _ _) rest (by simp [hrest, Piece.bytes])
        · exact ⟨⟨[], .line rest hnewline⟩, hrest.symm⟩
      by_cases hblock : ∃ rest, b :: bytes = slash :: star :: rest
      · obtain ⟨rest, hrest⟩ := hblock
        rcases exists_first_pair star slash rest with hopen | ⟨body, rest, rfl, hbody⟩
        · exact ⟨⟨[], .block rest hopen⟩, hrest.symm⟩
        · exact hpiece (.block body hbody) (List.cons_ne_nil _ _) rest
            (by simp [hrest, Piece.bytes, closing])
      · refine ⟨⟨[], .code (b :: bytes) (startsCode_of_not hblank fun c rest h => ⟨?_, ?_⟩)⟩, rfl⟩
        · rintro rfl
          exact hline ⟨rest, h⟩
        · rintro rfl
          exact hblock ⟨rest, h⟩

/-! ### The text of a region -/

theorem decodeLossy_eq_slash_cons_iff {bytes : List UInt8} {cs : List Char} :
    Text.decodeLossy bytes = '/' :: cs ↔ ∃ rest, bytes = slash :: rest ∧ Text.decodeLossy rest = cs :=
  Text.decodeLossy_eq_ascii_cons_iff (b := slash) (by decide)

theorem closing_not_infix_decodeLossy {body : List UInt8} (h : ¬ closing <:+: body) :
    ¬ ['*', '/'] <:+: Text.decodeLossy body := by
  rintro ⟨xs, ys, hxs⟩
  refine h ?_
  have hstar : Text.decodeLossy body = xs ++ Char.ofNat star.toNat :: '/' :: ys := by
    simpa [star] using hxs.symm
  obtain ⟨us, vs, rfl, -, hvs⟩ := (Text.decodeLossy_eq_append_cons_iff (by decide)).1 hstar
  obtain ⟨rest, rfl, -⟩ := decodeLossy_eq_slash_cons_iff.1 hvs
  exact ⟨us, rest, by simp [closing]⟩

theorem decodeLossy_slash_cons (bytes : List UInt8) :
    Text.decodeLossy (slash :: bytes) = '/' :: Text.decodeLossy bytes :=
  Text.decodeLossy_ascii_cons (by decide) bytes

theorem decodeLossy_star_cons (bytes : List UInt8) :
    Text.decodeLossy (star :: bytes) = '*' :: Text.decodeLossy bytes :=
  Text.decodeLossy_ascii_cons (by decide) bytes

theorem decodeLossy_piece_append (p : Piece) (bytes : List UInt8) :
    Text.decodeLossy (p.bytes ++ bytes) = p.text ++ Text.decodeLossy bytes := by
  cases p with
  | blank b hb => exact Text.decodeLossy_ascii_cons (lt_of_isBlankByte hb) bytes
  | line body hbody =>
    have hnewline := Text.decodeLossy_append_cons (b := newline) (by decide) body bytes
    simp only [Piece.bytes, Piece.text, List.cons_append, List.append_assoc, List.nil_append,
      decodeLossy_slash_cons, hnewline]
    rfl
  | block body hbody =>
    have hstar := Text.decodeLossy_append_cons (b := star) (by decide) body (slash :: bytes)
    simp only [Piece.bytes, Piece.text, closing, List.cons_append, List.append_assoc,
      List.nil_append, decodeLossy_slash_cons, decodeLossy_star_cons, hstar]
    rfl

theorem decodeLossy_pieces_append (pieces : List Piece) (bytes : List UInt8) :
    Text.decodeLossy (pieces.flatMap Piece.bytes ++ bytes) =
      pieces.flatMap Piece.text ++ Text.decodeLossy bytes := by
  induction pieces with
  | nil => rfl
  | cons p pieces ih =>
    rw [List.flatMap_cons, List.append_assoc, decodeLossy_piece_append, ih, List.flatMap_cons,
      List.append_assoc]

/-- The text begins with neither a blank nor a comment. -/
structure IsCode (text : List Char) : Prop where
  exists_cons : ∃ c rest, text = c :: rest ∧ Text.isAsciiBlank c = false ∧
    (c = '/' → rest.head? ≠ some '/' ∧ rest.head? ≠ some '*')

/-- A text begins with an ASCII character if its first byte is that character. -/
theorem head?_decodeLossy_ne {a b : UInt8} (ha : a < 0x80) {bytes : List UInt8} (hne : b ≠ a) :
    (Text.decodeLossy (b :: bytes)).head? ≠ some (Char.ofNat a.toNat) := by
  intro h
  obtain ⟨cs, hcs⟩ := List.head?_eq_some_iff.1 h
  obtain ⟨rest, hrest, -⟩ := (Text.decodeLossy_eq_ascii_cons_iff ha).1 hcs
  exact hne (List.cons.inj hrest).1

theorem isCode_decodeLossy {bytes : List UInt8} (h : startsCode bytes = true) :
    IsCode (Text.decodeLossy bytes) := by
  cases bytes with
  | nil => cases h
  | cons b bytes =>
    have hblank : isBlankByte b = false := by
      cases bytes <;> simp_all [startsCode]
    obtain ⟨c, -, rest, -, hread, -⟩ := Text.decodeLossy_cons b bytes
    refine ⟨c, _, hread, isAsciiBlank_eq_false hblank hread, ?_⟩
    rintro rfl
    by_cases hb : b = slash
    · subst hb
      rw [decodeLossy_slash_cons] at hread
      rw [← (List.cons.inj hread).2]
      cases bytes with
      | nil => simp
      | cons c bytes =>
        have hc : c ≠ slash ∧ c ≠ star := by
          simpa [startsCode, hblank] using h
        exact ⟨head?_decodeLossy_ne (a := slash) (by decide) hc.1,
          head?_decodeLossy_ne (a := star) (by decide) hc.2⟩
    · exact absurd (by rw [hread]; rfl) (head?_decodeLossy_ne (a := slash) (by decide) hb)

/-! ### Skipping -/

theorem skipFrom_blanks_of_isAsciiBlank {c : Char} (h : Text.isAsciiBlank c = true)
    (cs : List Char) : skipFrom .blanks (c :: cs) = skipFrom .blanks cs := by
  simp [skipFrom, h, (ne_of_isAsciiBlank h).1]

theorem skipFrom_lineComment {cs : List Char} (h : '\n' ∉ cs) (rest : List Char) :
    skipFrom .lineComment (cs ++ rest) = skipFrom .lineComment rest := by
  induction cs with
  | nil => rfl
  | cons c cs ih =>
    rw [List.mem_cons, not_or] at h
    rw [List.cons_append, skipFrom, if_neg (Ne.symm h.1), ih h.2]

theorem skipFrom_blockComment_cons (c : Char) (cs : List Char) (h : ¬ ['*', '/'] <+: c :: cs) :
    skipFrom .blockComment (c :: cs) = skipFrom .blockComment cs := by
  rw [skipFrom]
  rintro rest rfl rfl
  exact h ⟨rest, rfl⟩

/-- A closing of a block comment is found at its place. -/
theorem not_prefix_append_closing {c : Char} {cs : List Char} (h : ¬ ['*', '/'] <:+: c :: cs)
    (rest : List Char) : ¬ ['*', '/'] <+: c :: (cs ++ '*' :: rest) := by
  intro hstart
  rw [List.cons_prefix_cons] at hstart
  obtain ⟨rfl, hslash⟩ := hstart
  cases cs with
  | nil => simp at hslash
  | cons d cs =>
    rw [List.cons_append, List.cons_prefix_cons] at hslash
    obtain ⟨rfl, -⟩ := hslash
    exact h ⟨[], cs, rfl⟩

/-- A reader that passes over all characters of a block comment passes over a text without the
closing. -/
theorem eq_of_no_closing {β : Type} {f : List Char → β}
    (hcons : ∀ c cs, ¬ ['*', '/'] <+: c :: cs → f (c :: cs) = f cs) {cs : List Char}
    (h : ¬ ['*', '/'] <:+: cs) :
    f cs = f [] ∧ ∀ rest, f (cs ++ '*' :: rest) = f ('*' :: rest) := by
  induction cs with
  | nil => exact ⟨rfl, fun rest => rfl⟩
  | cons c cs ih =>
    obtain ⟨hopen, hclosed⟩ := ih fun hwithin => h (List.infix_cons hwithin)
    refine ⟨?_, fun rest => ?_⟩
    · rw [hcons c cs fun hstart => h hstart.isInfix, hopen]
    · rw [List.cons_append, hcons c _ (not_prefix_append_closing h rest), hclosed]

theorem IsCode.skipFrom_blanks {cs : List Char} (h : IsCode cs) : skipFrom .blanks cs = cs := by
  obtain ⟨c, rest, rfl, hblank, hslash⟩ := h.exists_cons
  unfold skipFrom
  split
  · cases ‹_ = _›
  all_goals simp_all

theorem skipFrom_piece (p : Piece) (rest : List Char) :
    skipFrom .blanks (p.text ++ rest) = skipFrom .blanks rest := by
  cases p with
  | blank b hb => exact skipFrom_blanks_of_isAsciiBlank (isAsciiBlank_iff.2 ⟨b, hb, rfl⟩) rest
  | line body hbody =>
    have hfree := newline_mem_decodeLossy_iff.not.2 hbody
    simp only [Piece.text, List.cons_append, List.append_assoc, List.nil_append]
    exact (skipFrom_lineComment hfree _).trans rfl
  | block body hbody =>
    simp only [Piece.text, List.cons_append, List.append_assoc, List.nil_append]
    exact (eq_of_no_closing skipFrom_blockComment_cons (closing_not_infix_decodeLossy hbody)).2 _

theorem skipFrom_ending (e : Ending) :
    skipFrom .blanks (Text.decodeLossy e.bytes) = Text.decodeLossy e.rest := by
  cases e with
  | nothing => rfl
  | code rest hrest => exact (isCode_decodeLossy hrest).skipFrom_blanks
  | line body hbody =>
    have hfree := newline_mem_decodeLossy_iff.not.2 hbody
    have hskip := skipFrom_lineComment hfree []
    rw [List.append_nil] at hskip
    simp only [Ending.bytes, decodeLossy_slash_cons]
    exact hskip
  | block body hbody =>
    simp only [Ending.bytes, decodeLossy_slash_cons, decodeLossy_star_cons]
    exact (eq_of_no_closing skipFrom_blockComment_cons (closing_not_infix_decodeLossy hbody)).1

/-- What is left when blanks and comments are skipped is the code. -/
theorem Region.skipBlanksAndComments_bytes (r : Region) :
    skipBlanksAndComments (Text.decodeLossy r.bytes) = Text.decodeLossy r.ending.rest := by
  obtain ⟨pieces, e⟩ := r
  induction pieces with
  | nil => exact skipFrom_ending e
  | cons p pieces ih =>
    rw [show (⟨p :: pieces, e⟩ : Region) = cons p ⟨pieces, e⟩ from rfl, bytes_cons,
      decodeLossy_piece_append, skipBlanksAndComments, skipFrom_piece]
    exact ih

end GoBuild.Source
