import GoBuild.Proofs.Source.Comments

/-!
# The preamble of a source file

The lines of the preamble that can hold directives are those that a blank line follows with only blank
lines and line comments before it (`InPreamble`). They are the first lines of the file, and the
legacy directives of its header are taken from them (`exists_legacyLines_eq`). No line counts from the
first on that is neither blank nor a line comment (`keptLines_of_code`).
-/

namespace GoBuild.Source

open Text (isAsciiBlank)

/-- The line holds nothing but blanks. -/
def isBlankLine (line : List UInt8) : Bool := (Text.trim isBlankByte line).isEmpty

/-- The line is a line comment, with nothing but blanks before it. -/
def startsLineComment (line : List UInt8) : Bool :=
  (Text.after? [slash, slash] (Text.trim isBlankByte line)).isSome

def isBlankOrComment (line : List UInt8) : Bool := isBlankLine line || startsLineComment line

/-- The line at the index is followed by a blank line, and all lines before that one are blank or line
comments. -/
def InPreamble (lines : List (List UInt8)) (i : Nat) : Prop :=
  ∃ front blank rest, lines = front ++ blank :: rest ∧ i < front.length ∧
    isBlankLine blank = true ∧ ∀ line ∈ front, isBlankOrComment line = true

/-- The lines up to the last blank line that has nothing but blank lines and line comments before
it. -/
def preambleLines (lines : List (List UInt8)) : List (List UInt8) :=
  Text.trimEnd (fun line => !isBlankLine line) (lines.takeWhile isBlankOrComment)

/-! ### The lines of the preamble -/

theorem preambleLines_append {front : List (List UInt8)} {blank : List UInt8}
    (hfront : ∀ line ∈ front, isBlankOrComment line = true) (hblank : isBlankLine blank = true)
    (rest : List (List UInt8)) : ∃ more, preambleLines (front ++ blank :: rest) =
      front ++ blank :: more := by
  have hkept : isBlankOrComment blank = true := by simp [isBlankOrComment, hblank]
  rw [preambleLines, List.takeWhile_append_of_pos hfront, List.takeWhile_cons_of_pos hkept,
    Text.trimEnd_append_cons_of_neg (by simp [hblank])]
  exact ⟨_, rfl⟩

theorem preambleLines_prefix (lines : List (List UInt8)) : preambleLines lines <+: lines :=
  (Text.trimEnd_prefix _).trans (List.takeWhile_prefix _)

/-- The preamble is empty, or a blank line is its last one. -/
theorem preambleLines_cases (lines : List (List UInt8)) : preambleLines lines = [] ∨
    ∃ front blank, preambleLines lines = front ++ [blank] ∧ isBlankLine blank = true ∧
      ∀ line ∈ front, isBlankOrComment line = true := by
  refine (List.eq_nil_or_concat (preambleLines lines)).imp id ?_
  rintro ⟨front, blank, h⟩
  rw [List.concat_eq_append] at h
  refine ⟨front, blank, h, ?_, fun line hline => ?_⟩
  · have hne : preambleLines lines ≠ [] := by simp [h]
    have hlast := List.rdropWhile_last_not (fun line => !isBlankLine line)
      (lines.takeWhile isBlankOrComment) hne
    have hget : (preambleLines lines).getLast hne = blank := by simp [h]
    change ¬ (!isBlankLine ((preambleLines lines).getLast hne)) = true at hlast
    simpa [hget] using hlast
  · have hmem : line ∈ preambleLines lines := by simp [h, hline]
    exact List.mem_takeWhile_imp ((Text.trimEnd_prefix _).subset hmem)

/-- The lines in the preamble are the first ones, and only a blank line comes after them in it. -/
theorem exists_preambleLines_eq (lines : List (List UInt8)) :
    ∃ n tail, (∀ i, i < n ↔ InPreamble lines i) ∧ preambleLines lines = lines.take n ++ tail ∧
      ∀ line ∈ tail, isBlankLine line = true := by
  -- The blank line that follows the line at `i` is kept too.
  have hbound {i : Nat} (h : InPreamble lines i) : i + 1 < (preambleLines lines).length := by
    obtain ⟨front, blank, rest, rfl, hi, hblank, hfront⟩ := h
    obtain ⟨more, hmore⟩ := preambleLines_append hfront hblank rest
    rw [hmore]
    simp
    omega
  rcases preambleLines_cases lines with hnil | ⟨front, blank, heq, hblank, hfront⟩
  · refine ⟨0, [], fun i => ?_, by simpa using hnil, by simp⟩
    simp only [Nat.not_lt_zero, false_iff]
    intro h
    simpa [hnil] using hbound h
  · obtain ⟨rest, hrest⟩ := preambleLines_prefix lines
    rw [heq, List.append_assoc, List.singleton_append] at hrest
    refine ⟨front.length, [blank], fun i => ⟨fun hi => ?_, fun h => ?_⟩, ?_, by simpa using hblank⟩
    · exact ⟨front, blank, rest, hrest.symm, hi, hblank, hfront⟩
    · simpa [heq] using hbound h
    · rw [heq, ← hrest, List.take_left']
      rfl

/-! ### The preamble of a text -/

theorem isEmpty_lineText (line : List UInt8) : (lineText line).isEmpty = isBlankLine line := by
  rw [Bool.eq_iff_iff, List.isEmpty_iff, lineText, Text.decodeLossy_eq_nil_iff, isBlankLine,
    List.isEmpty_iff]

theorem isLineComment_lineText (line : List UInt8) :
    isLineComment (lineText line) = startsLineComment line := by
  rw [Bool.eq_iff_iff, isLineComment, startsLineComment, Option.isSome_iff_exists,
    Option.isSome_iff_exists]
  simp only [Text.after?_eq_some_iff]
  constructor
  · rintro ⟨cs, hcs⟩
    obtain ⟨bytes, hbytes, hrest⟩ := decodeLossy_eq_slash_cons_iff.1 hcs
    obtain ⟨rest, rfl, -⟩ := decodeLossy_eq_slash_cons_iff.1 hrest
    exact ⟨rest, hbytes⟩
  · rintro ⟨rest, hrest⟩
    refine ⟨Text.decodeLossy rest, ?_⟩
    rw [lineText, hrest]
    exact (decodeLossy_slash_cons _).trans (congrArg _ (decodeLossy_slash_cons _))

theorem preamble_decodeLossy (bytes : List UInt8) :
    Header.preamble (Text.lines (Text.decodeLossy bytes)) =
      (preambleLines (byteLines bytes)).map lineText := by
  have htrim : (Text.lines (Text.decodeLossy bytes)).map trimLine =
      (byteLines bytes).map lineText := by
    rw [lines_decodeLossy, List.map_map]
    exact List.map_congr_left fun line _ => trimLine_decodeLossy line
  have hkept : (fun line => line.isEmpty || isLineComment line) ∘ lineText = isBlankOrComment := by
    funext line
    simp [isBlankOrComment, isEmpty_lineText, isLineComment_lineText]
  have hblank : (fun line => !line.isEmpty) ∘ lineText = fun line => !isBlankLine line := by
    funext line
    simp [isEmpty_lineText]
  rw [Header.preamble, htrim, List.takeWhile_map, Text.trimEnd_map, hkept, hblank, preambleLines]

/-- The legacy directives are those in the preamble, which is made of the first lines. -/
theorem exists_legacyLines_eq (bytes : List UInt8) :
    ∃ n, (∀ i, i < n ↔ InPreamble (byteLines bytes) i) ∧
      ((Header.preamble (Text.lines (Text.decodeLossy bytes))).map String.ofList).filter
          Directive.isLegacy =
        (((byteLines bytes).take n).map fun line => String.ofList (lineText line)).filter
          Directive.isLegacy := by
  obtain ⟨n, tail, hn, heq, htail⟩ := exists_preambleLines_eq (byteLines bytes)
  have hnone : ((tail.map lineText).map String.ofList).filter Directive.isLegacy = [] := by
    rw [List.map_map, List.filter_eq_nil_iff]
    simp only [List.mem_map]
    rintro _ ⟨line, hline, rfl⟩
    have hnil : lineText line = [] := List.isEmpty_iff.1 (by rw [isEmpty_lineText, htail line hline])
    rw [Function.comp_apply, hnil]
    decide
  refine ⟨n, hn, ?_⟩
  rw [preamble_decodeLossy, heq, List.map_append, List.map_append, List.filter_append, hnone,
    List.append_nil, List.map_map]
  rfl

/-! ### The lines that are kept -/

/-- The lines, trimmed, before the first one that is neither blank nor a line comment. -/
def keptLines (text : List Char) : List (List Char) :=
  ((Text.lines text).map trimLine).takeWhile fun line => line.isEmpty || isLineComment line

theorem preamble_lines (text : List Char) :
    Header.preamble (Text.lines text) = Text.trimEnd (fun line => !line.isEmpty) (keptLines text) :=
  rfl

variable {front : List Char} (hfree : '\n' ∉ front) (hfront : ∀ c ∈ front, isAsciiBlank c = true)
include hfree

theorem keptLines_newline (rest : List Char) :
    keptLines (front ++ '\n' :: rest) =
      if (trimLine front).isEmpty || isLineComment (trimLine front) then
        trimLine front :: keptLines rest else [] := by
  rw [keptLines, Text.lines_append_newline hfree, List.map_cons, List.takeWhile_cons]
  rfl

include hfront

theorem keptLines_of_code {c : Char} {rest : List Char} (hblank : isAsciiBlank c = false)
    (h : c = '/' → rest.head? ≠ some '/') : keptLines (front ++ c :: rest) = [] := by
  obtain ⟨line, more, hlines, hfirst⟩ :=
    Text.exists_lines_eq_cons hfree (ne_newline_of_isAsciiBlank hblank) rest
  have hslash : c = '/' → line.head? ≠ some '/' := fun hc => mt (hfirst _) (h hc)
  have hne : (trimLine (c :: line)).isEmpty = false := by
    rw [trimLine, Text.trim_cons_of_neg hblank]
    rfl
  rw [keptLines, hlines, List.map_cons, trimLine_append hfront, List.takeWhile_cons, hne,
    Header.isLineComment_trimLine_eq_false hblank hslash]
  rfl

theorem keptLines_isCode {cs : List Char} (h : IsCode cs) : keptLines (front ++ cs) = [] := by
  obtain ⟨c, rest, rfl, hblank, hslash⟩ := h.exists_cons
  exact keptLines_of_code hfree hfront hblank fun hc => (hslash hc).1

theorem keptLines_block (cs : List Char) : keptLines (front ++ '/' :: '*' :: cs) = [] :=
  keptLines_of_code hfree hfront (by decide) (by simp)

theorem keptLines_ending_outline (e : Ending) :
    keptLines (front ++ Text.decodeLossy e.outline.bytes) =
      keptLines (front ++ Text.decodeLossy e.bytes) := by
  cases e with
  | nothing => rfl
  | line body hbody => rfl
  | code rest hrest =>
    have hcode : IsCode (Text.decodeLossy [0x70]) := isCode_decodeLossy (by decide)
    exact (keptLines_isCode hfree hfront hcode).trans
      (keptLines_isCode hfree hfront (isCode_decodeLossy hrest)).symm
  | block body hbody =>
    simp only [Ending.outline, Ending.bytes, decodeLossy_slash_cons, decodeLossy_star_cons,
      keptLines_block hfree hfront]

omit hfree hfront

/-- What is inside block comments or after the first byte of code does not count. -/
theorem keptLines_outline (r : Region) (hfree : '\n' ∉ front)
    (hfront : ∀ c ∈ front, isAsciiBlank c = true) :
    keptLines (front ++ Text.decodeLossy r.outline.bytes) =
      keptLines (front ++ Text.decodeLossy r.bytes) := by
  obtain ⟨pieces, e⟩ := r
  induction pieces generalizing front with
  | nil => exact keptLines_ending_outline hfree hfront e
  | cons piece pieces ih =>
    have hbytes : (⟨piece :: pieces, e⟩ : Region).bytes =
        piece.bytes ++ (⟨pieces, e⟩ : Region).bytes := Region.bytes_cons piece ⟨pieces, e⟩
    have houtline : (⟨piece :: pieces, e⟩ : Region).outline.bytes =
        piece.outline.bytes ++ (⟨pieces, e⟩ : Region).outline.bytes :=
      Region.bytes_cons piece.outline (Region.outline ⟨pieces, e⟩)
    have hnext : keptLines (Text.decodeLossy (Region.outline ⟨pieces, e⟩).bytes) =
        keptLines (Text.decodeLossy (⟨pieces, e⟩ : Region).bytes) := ih List.not_mem_nil (by simp)
    rw [hbytes, houtline, decodeLossy_piece_append, decodeLossy_piece_append]
    cases piece with
    | blank b hb =>
      have hblank : isAsciiBlank (Char.ofNat b.toNat) = true := isAsciiBlank_iff.2 ⟨b, hb, rfl⟩
      simp only [Piece.outline, Piece.text, List.cons_append, List.nil_append]
      by_cases hnewline : Char.ofNat b.toNat = '\n'
      · rw [hnewline, keptLines_newline hfree, keptLines_newline hfree, hnext]
      · have hfree' : '\n' ∉ front ++ [Char.ofNat b.toNat] := by simp [hfree, Ne.symm hnewline]
        have hfront' : ∀ c ∈ front ++ [Char.ofNat b.toNat], isAsciiBlank c = true :=
          List.forall_mem_append.2 ⟨hfront, by simpa using hblank⟩
        simpa using ih hfree' hfront'
    | line body hbody =>
      have hline : '\n' ∉ front ++ '/' :: '/' :: Text.decodeLossy body := by
        simp [hfree, newline_mem_decodeLossy_iff, hbody]
      have hkept := keptLines_newline hline
      simp only [List.append_assoc, List.cons_append] at hkept
      simp only [Piece.outline, Piece.text, List.cons_append, List.append_assoc, List.nil_append,
        hkept, hnext]
    | block body hbody =>
      simp only [Piece.outline, Piece.text, List.cons_append, keptLines_block hfree hfront]

end GoBuild.Source
