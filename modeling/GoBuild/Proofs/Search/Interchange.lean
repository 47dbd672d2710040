import GoBuild.Proofs.Directive.Block
import GoBuild.Proofs.Directive.Line
import GoBuild.Proofs.Selection.Constraint
import GoBuild.Proofs.Source.Header

/-!
# Files with directives of either form

A file whose header writes a block in `// +build` lines and a file whose header writes it in one
`//go:build` line have the same constraint, so the search finds the same for both
(`Matcher.find_legacy_eq_find_modern`).
-/

namespace GoBuild

open Source

/-! ### Directive lines as comments -/

namespace Directive

variable {text : List Char} (hline : '\n' ∉ text) (htight : Text.Tight Text.isBlank text)
include hline htight

theorem isCommentLine_modernLine : IsCommentLine (modernLine text) where
  newline_not_mem := newline_not_mem_modernLine hline
  tight := by
    simpa [modernLine] using (tight_modernMarker.append [' '] htight).isAsciiBlank
  isLineComment := rfl

theorem isCommentLine_legacyLine : IsCommentLine (legacyLine text) where
  newline_not_mem := newline_not_mem_legacyLine hline
  tight := by
    have := (tight_commentMarker.append (' ' :: (legacyMarker ++ [' '])) htight).isAsciiBlank
    simpa [legacyLine] using this
  isLineComment := rfl

end Directive

/-! ### Headers -/

namespace Directive.Block

/-- The block as `// +build` lines, with a blank line after them. -/
def legacyHeader (b : Block) : List Char :=
  (b.toList.map fun l => legacyLine l.legacyText).flatMap (· ++ ['\n']) ++ ['\n']

/-- The block as one `//go:build` line. -/
def modernHeader (b : Block) : List Char := modernLine b.modernText ++ ['\n']

variable {b : Block} {code : List UInt8}

/-- The `// +build` lines of a block are read one by one as its lines. -/
theorem mapM_parseLine_legacyLine (hliterals : ∀ l ∈ b.toList, l.literals.length ≤ maxLiterals) :
    ((b.toList.map fun l => legacyLine l.legacyText).map String.ofList).mapM parseLine =
      .ok (b.toList.map (·.phrase.expr)) := by
  rw [Except.mapM_eq_ok_iff, List.map_map, List.map_map, List.map_map]
  refine List.map_congr_left fun l hl => ?_
  have hparse := parseLine_legacyLine l.newline_not_mem_legacyText l.tight_legacyText
  rwa [l.parseLegacy_legacyText, if_pos (hliterals l hl)] at hparse

variable (hcode : beginsCode (Text.decodeLossy code) = true)
include hcode

/-- The constraint of a file whose header is the block in `// +build` lines. -/
theorem constraintOf_legacyHeader (hliterals : ∀ l ∈ b.toList, l.literals.length ≤ maxLiterals)
    (hlines : b.toList.length ≤ Header.maxPlusBuildLines) :
    Matcher.constraintOf (Text.encode b.legacyHeader ++ code) = .ok (some b.expr) := by
  let found := b.toList.map fun l => legacyLine l.legacyText
  have hfound : ∀ line ∈ found, IsCommentLine line := List.forall_mem_map.2 fun l _ =>
    isCommentLine_legacyLine l.newline_not_mem_legacyText l.tight_legacyText
  have hlegacy : ∀ line ∈ found, isLegacy (String.ofList line) = true :=
    List.forall_mem_map.2 fun l _ =>
      isLegacy_legacyLine l.newline_not_mem_legacyText l.tight_legacyText
  have hmodern : ∀ line ∈ found, Header.isGoBuildComment line = false :=
    List.forall_mem_map.2 fun _ _ => rfl
  have hread : Header.ofContent (Text.encode b.legacyHeader ++ code) =
      .ok ⟨none, found.map String.ofList, found.contains Header.binaryOnlyComment⟩ := by
    obtain ⟨cs, hcs⟩ : ∃ cs, b.legacyHeader = '/' :: cs := ⟨_, rfl⟩
    rw [hcs, Header.ofContent_encode_append (by decide), ← hcs, legacyHeader, List.append_assoc]
    exact Header.ofText_legacy hfound hlegacy hmodern hcode
  have hcount : (found.map String.ofList).length ≤ Header.maxPlusBuildLines := by
    rwa [List.length_map, List.length_map]
  refine Matcher.constraintOf_eq_ok_iff.2 ⟨_, hread, ?_⟩
  simp only [Header.constraint, if_pos hcount, found, mapM_parseLine_legacyLine hliterals]
  exact congrArg Except.ok b.conj?_lines

/-- The constraint of a file whose header is the block in a `//go:build` line. -/
theorem constraintOf_modernHeader (hsize : b.size ≤ maxOperands) :
    Matcher.constraintOf (Text.encode b.modernHeader ++ code) = .ok (some b.expr) := by
  have hline := b.newline_not_mem_modernText
  have htight := b.tight_modernText
  obtain ⟨h, hread, hgoBuild⟩ := Header.ofText_modern
    (isCommentLine_modernLine hline htight) rfl hcode
  have hparse := parseLine_modernLine hline htight
  rw [b.parseModern_modernText, if_pos hsize] at hparse
  refine Matcher.constraintOf_eq_ok_iff.2 ⟨h, ?_, ?_⟩
  · obtain ⟨cs, hcs⟩ : ∃ cs, b.modernHeader = '/' :: cs := ⟨_, rfl⟩
    rw [hcs, Header.ofContent_encode_append (by decide), ← hcs, modernHeader, List.append_assoc]
    exact hread
  · simp only [Header.constraint, hgoBuild, hparse]
    rfl

end Directive.Block

/-! ### The search -/

/-- For a block that is not too large, the file with its `// +build` lines and the file with its
`//go:build` line have the same constraint, so the search finds the same context or fails in the same
way, from every start. -/
theorem Matcher.find_legacy_eq_find_modern {b : Directive.Block}
    (hliterals : ∀ l ∈ b.toList, l.literals.length ≤ Directive.maxLiterals)
    (hsize : b.size ≤ Directive.maxOperands) {code code' : List UInt8}
    (hcode : beginsCode (Text.decodeLossy code) = true)
    (hcode' : beginsCode (Text.decodeLossy code') = true) :
    constraintOf (Text.encode b.legacyHeader ++ code) = .ok (some b.expr) ∧
      constraintOf (Text.encode b.modernHeader ++ code') = .ok (some b.expr) ∧
      ∀ (m : Matcher) (start : Context) (path : String),
        m.find start path (Text.encode b.legacyHeader ++ code) =
          m.find start path (Text.encode b.modernHeader ++ code') := by
  -- Every line has a tag, so there are not too many lines either.
  have hlines : b.toList.length ≤ Header.maxPlusBuildLines := b.length_le_size.trans hsize
  have hlegacy := Directive.Block.constraintOf_legacyHeader hcode hliterals hlines
  have hmodern := Directive.Block.constraintOf_modernHeader hcode' hsize
  refine ⟨hlegacy, hmodern, fun m start path => ?_⟩
  simp only [find, hlegacy, hmodern]

theorem Matcher.find_legacy_eq_find_modern_linux :
    let linux : Directive.Literal := ⟨false, "linux", by decide +kernel⟩
    let notCgo : Directive.Literal := ⟨true, "cgo", by decide +kernel⟩
    let darwin : Directive.Literal := ⟨false, "darwin", by decide +kernel⟩
    let amd64 : Directive.Literal := ⟨false, "amd64", by decide +kernel⟩
    let b : Directive.Block :=
      ⟨⟨⟨linux, [notCgo]⟩, [⟨darwin, []⟩]⟩, [⟨⟨amd64, []⟩, []⟩]⟩
    let code := "package p\n".toUTF8.toList
    let legacy := "// +build linux,!cgo darwin\n// +build amd64\n\npackage p\n".toUTF8.toList
    let modern := "//go:build ((linux && !cgo) || (darwin)) && ((amd64))\npackage p\n".toUTF8.toList
    (∀ l ∈ b.toList, l.literals.length ≤ Directive.maxLiterals) ∧
      b.size ≤ Directive.maxOperands ∧ beginsCode (Text.decodeLossy code) = true ∧
      Text.encode b.legacyHeader ++ code = legacy ∧ Text.encode b.modernHeader ++ code = modern ∧
      ∀ (m : Matcher) (start : Context) (path : String),
        m.find start path legacy = m.find start path modern := by
  intro linux notCgo darwin amd64 b code legacy modern
  have hliterals : ∀ l ∈ b.toList, l.literals.length ≤ Directive.maxLiterals := by decide +kernel
  have hsize : b.size ≤ Directive.maxOperands := by decide +kernel
  have hcode : beginsCode (Text.decodeLossy code) = true := by decide +kernel
  have hlegacy : Text.encode b.legacyHeader ++ code = legacy := by decide +kernel
  have hmodern : Text.encode b.modernHeader ++ code = modern := by decide +kernel
  obtain ⟨-, -, hfind⟩ := find_legacy_eq_find_modern hliterals hsize hcode hcode
  rw [hlegacy, hmodern] at hfind
  exact ⟨hliterals, hsize, hcode, hlegacy, hmodern, hfind⟩

end GoBuild
