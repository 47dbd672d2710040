import GoBuild.Proofs.Source.Preamble

/-!
# The header of a leading region

The header of a source file tells what stands in its leading region, the part that is skipped as
blanks and comments: the `//go:build` line and the mark of a binary-only package among the line
comments that are the first thing on their line, and the legacy directives of the preamble. Neither
the inside of block comments nor what follows the first byte of code has a say
(`Header.ofContent_eq_of_region`).
-/

namespace GoBuild.Source

namespace Region

theorem freshComments_outline (fresh : Bool) (pieces : List Piece) (e : Ending) :
    freshComments fresh (pieces.map Piece.outline) e.outline = freshComments fresh pieces e := by
  induction pieces generalizing fresh with
  | nil => cases e <;> rfl
  | cons p pieces ih => cases p <;> simp [Piece.outline, freshComments, ih]

/-- The text of an outline tells the same header. -/
theorem ofText_outline (r : Region) :
    Header.ofText (Text.decodeLossy r.outline.bytes) = Header.ofText (Text.decodeLossy r.bytes) := by
  have hcomments : r.outline.comments = r.comments := freshComments_outline true r.pieces r.ending
  have hkept : keptLines (Text.decodeLossy r.outline.bytes) =
      keptLines (Text.decodeLossy r.bytes) := keptLines_outline r List.not_mem_nil (by simp)
  simp only [Header.ofText, comments_lines, hcomments, preamble_lines, hkept]

/-- An outline does not begin with a byte order mark. -/
theorem unmarked_outline (r : Region) : unmarked r.outline.bytes = r.outline.bytes := by
  have hfirst : ∀ bytes, r.outline.bytes ≠ 0xef :: bytes := by
    obtain ⟨pieces, e⟩ := r
    cases pieces with
    | nil => cases e <;> simp [outline, Region.bytes, Ending.outline, Ending.bytes, slash]
    | cons p pieces =>
      intro bytes
      simp only [outline, Region.bytes, List.map_cons, List.flatMap_cons, List.append_assoc]
      exact p.outline.bytes_append_ne _ bytes
  exact unmarked_of_forall_ne hfirst

end Region

namespace Header

/-- A file is a byte order mark, if it has one, and a leading region, and any reading of it as one has
the code at the place where skipping blanks and comments stops. Its header is that of the outline,
where the inside of block comments and the code are taken out; the `//go:build` line and the mark of a
binary-only package are found among the line comments that are the first thing on their line, and the
legacy directives among the lines of the preamble. -/
theorem ofContent_eq_of_region (content : List UInt8) :
    (∃ r : Region, r.bytes = unmarked content) ∧
    ∀ r : Region, r.bytes = unmarked content →
      skipBlanksAndComments (text content) = Text.decodeLossy r.ending.rest ∧
      ofContent content = ofContent r.outline.bytes ∧
      ∃ n, (∀ i, i < n ↔ InPreamble (byteLines r.bytes) i) ∧
        let plusBuild := (((byteLines r.bytes).take n).map fun line =>
          String.ofList (lineText line)).filter Directive.isLegacy
        let binaryOnly := (r.comments.map lineText).contains binaryOnlyComment
        ofContent content =
          match (r.comments.map lineText).filter isGoBuildComment with
          | [] => .ok ⟨none, plusBuild, binaryOnly⟩
          | [line] => .ok ⟨some (String.ofList line), plusBuild, binaryOnly⟩
          | _ :: _ :: _ => .error .multipleGoBuild := by
  refine ⟨Region.exists_bytes_eq _, fun r hr => ?_⟩
  have htext : text content = Text.decodeLossy r.bytes := by rw [text_eq_decodeLossy, hr]
  have houtline : text r.outline.bytes = Text.decodeLossy r.outline.bytes := by
    rw [text_eq_decodeLossy, r.unmarked_outline]
  obtain ⟨n, hn, hlegacy⟩ := exists_legacyLines_eq r.bytes
  refine ⟨?_, ?_, n, hn, ?_⟩
  · rw [htext, r.skipBlanksAndComments_bytes]
  · rw [ofContent, ofContent, htext, houtline, r.ofText_outline]
  · rcases hfound : (r.comments.map lineText).filter isGoBuildComment with _ | ⟨line, _ | _⟩ <;>
      simp only [ofContent, ofText, htext, r.comments_lines, hlegacy, hfound]

theorem ofContent_eq_of_region_linux :
    let r : Region :=
      ⟨[.block (Text.encode "\n//go:build windows\n".toList) (by decide +kernel), .blank newline rfl,
        .line (Text.encode "go:build linux".toList) (by decide +kernel)],
        .code (Text.encode "package p".toList) (by decide +kernel)⟩
    ofContent r.bytes = ofContent r.outline.bytes ∧
      ofContent r.bytes = .ok ⟨some "//go:build linux", [], false⟩ := by
  intro r
  have hmark : r.bytes = unmarked r.bytes := by decide +kernel
  have hheader : ofContent r.bytes = .ok ⟨some "//go:build linux", [], false⟩ := by decide +kernel
  exact ⟨((ofContent_eq_of_region r.bytes).2 r hmark).2.1, hheader⟩

end Header

end GoBuild.Source
