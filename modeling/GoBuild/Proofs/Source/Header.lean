import GoBuild.Proofs.Text.Lines
import GoBuild.Proofs.Text.Utf8
import GoBuild.Source.Header

/-!
# Headers of line comments

The header of a file that begins with line comments and goes on with code (`beginsCode`). The
comments are found in their order (`Header.comments_append`). A blank line after them makes them the
preamble (`Header.preamble_append`), so `// +build` lines among them count (`Header.ofText_legacy`);
a `//go:build` line counts in any case (`Header.ofText_modern`).
-/

namespace GoBuild.Source

/-- The first of the lines that is not blank, if there is one, ends in code. -/
def codeFirst (lines : List (List Char)) : Bool :=
  ((lines.map trimLine).find? fun line => !line.isEmpty).all fun line =>
    Place.atEndOf false line = .code

/-- The first line of the text that is not blank, if there is one, ends in code. -/
def beginsCode (text : List Char) : Bool := codeFirst (Text.lines text)

/-- A line comment that is all of its line. -/
structure IsCommentLine (line : List Char) : Prop where
  newline_not_mem : '\n' ∉ line
  tight : Text.Tight Text.isAsciiBlank line
  isLineComment : isLineComment line = true

namespace IsCommentLine

variable {line : List Char}

theorem trimLine_eq (h : IsCommentLine line) : trimLine line = line := h.tight.trim_eq

theorem exists_eq (h : IsCommentLine line) : ∃ rest, line = '/' :: '/' :: rest := by
  obtain ⟨rest, hrest⟩ := Option.isSome_iff_exists.1 h.isLineComment
  exact ⟨rest, Text.after?_eq_some_iff.1 hrest⟩

theorem atEndOf_eq (h : IsCommentLine line) : Place.atEndOf false line = .outside := by
  obtain ⟨rest, rfl⟩ := h.exists_eq
  rfl

end IsCommentLine

theorem isLineComment_eq_false_of_code {line : List Char}
    (h : Place.atEndOf false line = .code) : isLineComment line = false := by
  refine Bool.eq_false_iff.2 fun hcomment => ?_
  obtain ⟨rest, hrest⟩ := Option.isSome_iff_exists.1 hcomment
  rw [Text.after?_eq_some_iff.1 hrest] at h
  cases h

theorem codeFirst_cons_of_blank {line : List Char} (h : trimLine line = [])
    (lines : List (List Char)) : codeFirst (line :: lines) = codeFirst lines := by
  simp [codeFirst, h]

theorem codeFirst_cons_of_ne {line : List Char} (h : trimLine line ≠ [])
    (lines : List (List Char)) :
    codeFirst (line :: lines) = true ↔ Place.atEndOf false (trimLine line) = .code := by
  simp [codeFirst, h]

namespace Header

variable {found lines : List (List Char)}

/-! ### Comments -/

theorem found_of_code {w : Walk} (hw : w.place = .code) :
    (lines.foldl Walk.step w).found = w.found := by
  induction lines generalizing w with
  | nil => rfl
  | cons line lines ih =>
    have hplace : (w.step line).place = .code := by simp [Walk.step, hw, Place.afterLine]
    have hfound : (w.step line).found = w.found := by simp [Walk.step, hw]
    rw [List.foldl_cons, ih hplace, hfound]

theorem found_of_codeFirst (h : codeFirst lines = true) :
    (lines.foldl Walk.step ⟨.outside, found⟩).found = found := by
  induction lines with
  | nil => rfl
  | cons line lines ih =>
    rw [List.foldl_cons]
    by_cases hblank : trimLine line = []
    · rw [codeFirst_cons_of_blank hblank] at h
      have hstep : Walk.step ⟨.outside, found⟩ line = ⟨.outside, found⟩ := by
        rw [Walk.step, hblank]
        rfl
      rw [hstep, ih h]
    · rw [codeFirst_cons_of_ne hblank] at h
      have hstep : Walk.step ⟨.outside, found⟩ line = ⟨.code, found⟩ := by
        simp [Walk.step, Place.afterLine, h, isLineComment_eq_false_of_code h]
      rw [hstep, found_of_code rfl]

theorem foldl_step_of_isCommentLine (hfound : ∀ line ∈ found, IsCommentLine line)
    (before : List (List Char)) :
    found.foldl Walk.step ⟨.outside, before⟩ = ⟨.outside, found.reverse ++ before⟩ := by
  induction found generalizing before with
  | nil => rfl
  | cons line found ih =>
    rw [List.forall_mem_cons] at hfound
    have hstep : Walk.step ⟨.outside, before⟩ line = ⟨.outside, line :: before⟩ := by
      simp [Walk.step, hfound.1.trimLine_eq, hfound.1.isLineComment, Place.afterLine,
        hfound.1.atEndOf_eq]
    rw [List.foldl_cons, hstep, ih hfound.2]
    simp

/-- The comment lines before code are found in their order. -/
theorem comments_append (hfound : ∀ line ∈ found, IsCommentLine line)
    (h : codeFirst lines = true) : comments (found ++ lines) = found := by
  rw [comments, List.foldl_append, foldl_step_of_isCommentLine hfound, found_of_codeFirst h]
  simp

/-! ### The preamble -/

/-- Up to the first line of code, all lines but the comments are blank. -/
theorem takeWhile_of_codeFirst (h : codeFirst lines = true) :
    ∀ line ∈ (lines.map trimLine).takeWhile (fun line => line.isEmpty || isLineComment line),
      line = [] := by
  induction lines with
  | nil => simp
  | cons line lines ih =>
    by_cases hblank : trimLine line = []
    · rw [codeFirst_cons_of_blank hblank] at h
      simpa [hblank] using ih h
    · rw [codeFirst_cons_of_ne hblank] at h
      simp [hblank, isLineComment_eq_false_of_code h]

/-- Comment lines before a blank line and code are the preamble, but for blank lines. -/
theorem preamble_append (hfound : ∀ line ∈ found, IsCommentLine line)
    (h : codeFirst lines = true) :
    ∃ blanks, (∀ line ∈ blanks, line = []) ∧ preamble (found ++ [] :: lines) = found ++ blanks := by
  let kept := fun line : List Char => line.isEmpty || isLineComment line
  have hkept : ∀ line ∈ found, kept line = true := fun line hline => by
    simp [kept, (hfound line hline).isLineComment]
  have hmap : (found ++ [] :: lines).map trimLine = found ++ [] :: lines.map trimLine := by
    rw [List.map_append, List.map_cons, List.map_congr_left fun line hline =>
      (hfound line hline).trimLine_eq, List.map_id']
    rfl
  have htake : ((found ++ [] :: lines).map trimLine).takeWhile kept =
      found ++ [] :: (lines.map trimLine).takeWhile kept := by
    rw [hmap, List.takeWhile_append_of_pos hkept, List.takeWhile_cons_of_pos rfl]
  have hblanks : ∀ line ∈ [] :: (lines.map trimLine).takeWhile kept, line = [] :=
    List.forall_mem_cons.2 ⟨rfl, takeWhile_of_codeFirst h⟩
  have htight : Text.Tight (fun line : List Char => !line.isEmpty)
      ([] :: (lines.map trimLine).takeWhile kept) :=
    .of_forall (List.cons_ne_nil _ _) fun line hline => by simp [hblanks line hline]
  refine ⟨_, hblanks, ?_⟩
  rw [preamble, htake, htight.trimEnd_append_eq]

/-! ### Directives -/

/-- The header of `// +build` lines, a blank line and code. -/
theorem ofText_legacy {text : List Char} (hfound : ∀ line ∈ found, IsCommentLine line)
    (hlegacy : ∀ line ∈ found, Directive.isLegacy (String.ofList line) = true)
    (hmodern : ∀ line ∈ found, isGoBuildComment line = false) (h : beginsCode text = true) :
    ofText (found.flatMap (· ++ ['\n']) ++ '\n' :: text) =
      .ok ⟨none, found.map String.ofList, found.contains binaryOnlyComment⟩ := by
  have hlines : Text.lines (found.flatMap (· ++ ['\n']) ++ '\n' :: text) =
      found ++ [] :: Text.lines text := by
    rw [Text.lines_flatMap_newline fun line hline => (hfound line hline).newline_not_mem]
    exact congrArg (found ++ ·) (Text.lines_append_newline List.not_mem_nil text)
  have hcode : codeFirst ([] :: Text.lines text) = true := by
    rwa [codeFirst_cons_of_blank rfl]
  obtain ⟨blanks, hblanks, hpreamble⟩ := preamble_append hfound h
  have hplus : ((found ++ blanks).map String.ofList).filter Directive.isLegacy =
      found.map String.ofList := by
    rw [List.map_append, List.filter_append, List.filter_eq_self.2, List.filter_eq_nil_iff.2,
      List.append_nil]
    · simp only [List.mem_map]
      rintro _ ⟨line, hline, rfl⟩
      rw [hblanks line hline]
      decide
    · simp only [List.mem_map]
      rintro _ ⟨line, hline, rfl⟩
      exact hlegacy line hline
  have hnone : found.filter isGoBuildComment = [] :=
    List.filter_eq_nil_iff.2 fun line hline => by simp [hmodern line hline]
  simp only [ofText, hlines, comments_append hfound hcode, hpreamble, hplus, hnone]

/-- The header of a `//go:build` line and code. -/
theorem ofText_modern {line text : List Char} (hline : IsCommentLine line)
    (hmodern : isGoBuildComment line = true) (h : beginsCode text = true) :
    ∃ hd, ofText (line ++ '\n' :: text) = .ok hd ∧ hd.goBuild = some (String.ofList line) := by
  have hlines : Text.lines (line ++ '\n' :: text) = [line] ++ Text.lines text :=
    Text.lines_append_newline hline.newline_not_mem text
  have hcomments : comments ([line] ++ Text.lines text) = [line] :=
    comments_append (by simpa using hline) h
  simp only [ofText, hlines, hcomments, List.filter_cons_of_pos hmodern, List.filter_nil]
  exact ⟨_, rfl, rfl⟩

section

variable {content : List UInt8} {h : Header} (hread : ofContent content = .ok h) {line : String}
include hread

theorem plusBuild_eq : h.plusBuild =
    ((preamble (Text.lines (text content))).map String.ofList).filter Directive.isLegacy := by
  rw [ofContent, ofText] at hread
  split at hread
  · cases hread
    rfl
  · cases hread
    rfl
  · cases hread

/-- The legacy lines of a header are directives of their kind. -/
theorem isLegacy_of_mem_plusBuild (hline : line ∈ h.plusBuild) : Directive.isLegacy line = true := by
  rw [plusBuild_eq hread] at hline
  exact (List.mem_filter.1 hline).2

theorem newline_not_mem_of_mem_plusBuild (hline : line ∈ h.plusBuild) : '\n' ∉ line.toList := by
  rw [plusBuild_eq hread] at hline
  obtain ⟨trimmed, hmem, rfl⟩ := List.mem_map.1 (List.mem_filter.1 hline).1
  have hkept := (List.takeWhile_prefix _).subset ((Text.trimEnd_prefix _).subset hmem)
  obtain ⟨raw, hraw, rfl⟩ := List.mem_map.1 hkept
  rw [String.toList_ofList]
  exact fun hnl => Text.newline_not_mem_of_mem_lines hraw (Text.mem_of_mem_trim hnl)

/-- The modern line of a header is one of the comments, and counts as a directive of its kind. -/
theorem mem_comments_of_goBuild (hgo : h.goBuild = some line) :
    line.toList ∈ comments (Text.lines (text content)) ∧ isGoBuildComment line.toList = true := by
  rw [ofContent, ofText] at hread
  split at hread
  · cases hread
    cases hgo
  · rename_i found hfound
    cases hread
    cases hgo
    rw [String.toList_ofList]
    exact List.mem_filter.1 (hfound ▸ List.mem_singleton_self found)
  · cases hread

end

/-! ### Bytes -/

/-- A file that begins with the UTF-8 form of a text, but not with a byte order mark. -/
theorem ofContent_encode_append {c : Char} (hc : c ≠ byteOrderMark) (cs : List Char)
    (bytes : List UInt8) :
    ofContent (Text.encode (c :: cs) ++ bytes) = ofText (c :: cs ++ Text.decodeLossy bytes) := by
  rw [ofContent, text, Text.decodeLossy_encode_append, List.cons_append, dropMark, if_neg hc]

end Header

end GoBuild.Source
