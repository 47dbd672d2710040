import GoBuild.Proofs.Directive.Meaning
import GoBuild.Proofs.Source.Header
import GoBuild.Proofs.Source.Recognition

/-!
# The constraint of a header

What reading the constraint of a header can lead to (`Header.constraint_cases`). Every line that a
header holds is found again to be a directive of its kind, so a `//go:build` line is read as its
text is, and `// +build` lines can only be too many or too long. If they are neither, their
constraint is true exactly where all of them are.
-/

namespace GoBuild

namespace Directive

/-- The line is a `// +build` line with more than 101 literals. -/
def IsLongLine (line : List Char) : Prop :=
  ∃ text fields, IsLegacyLine line text ∧ HasFields text fields ∧ 101 < fields.flatten.length

section

variable {line : String} (hline : '\n' ∉ line.toList) (h : isLegacy line = true)
include hline h

/-- A `// +build` line is read as its text. -/
theorem parseLine_eq_iff {result : Except ConstraintError Expr} :
    parseLine line = result ↔
      ∃ text, IsLegacyLine line.toList text ∧ parseLegacy text = result := by
  obtain ⟨text, htext⟩ := Option.isSome_iff_exists.1 h
  constructor
  · rintro rfl
    exact ⟨text, (legacyText?_eq_some_iff hline).1 htext, (parseLine_of_legacyText? htext).symm⟩
  · rintro ⟨text', htext', rfl⟩
    exact parseLine_of_legacyText? ((legacyText?_eq_some_iff hline).2 htext')

/-- A `// +build` line is refused exactly if it has more than 101 literals. -/
theorem parseLine_eq_tooComplex_iff :
    parseLine line = .error .tooComplex ↔ IsLongLine line.toList := by
  rw [parseLine_eq_iff hline h]
  refine exists_congr fun text => ?_
  rw [parseLegacy_eq_tooComplex_iff]
  constructor
  · exact fun ⟨htext, hlong⟩ => ⟨clauses text, htext, hasFields_clauses text, hlong⟩
  · rintro ⟨fields, htext, hfields, hlong⟩
    exact ⟨htext, literalCount_of_hasFields hfields ▸ hlong⟩

end

end Directive

namespace Source.Header

/-- There are more than 1000 `// +build` lines, or one of them is too long. -/
def IsLarge (h : Header) : Prop :=
  1000 < h.plusBuild.length ∨ ∃ line ∈ h.plusBuild, Directive.IsLongLine line.toList

/-- All the `// +build` lines are true. -/
def LinesTrue (h : Header) (v : String → Bool) : Prop :=
  ∀ line ∈ h.plusBuild, ∃ text x, Directive.IsLegacyLine line.toList text ∧
    Directive.parseLegacy text = .ok x ∧ x.eval v = true

/-- There is no constraint exactly if there is no directive. -/
theorem constraint_eq_none_iff {h : Header} (hgo : h.goBuild = none) :
    h.constraint = .ok none ↔ h.plusBuild = [] := by
  constructor
  · intro hnone
    simp only [constraint, hgo] at hnone
    split at hnone
    · obtain ⟨xs, hxs, hconj⟩ := Except.map_eq_ok_iff.1 hnone
      rw [Expr.conj?_eq_none_iff.1 hconj] at hxs
      exact List.map_eq_nil_iff.1 (Except.mapM_eq_ok_iff.1 hxs)
    · cases hnone
  · intro hnil
    simp only [constraint, hgo, hnil]
    rfl

section

variable {content : List UInt8} {h : Header} (hread : ofContent content = .ok h)
include hread

/-- A `//go:build` line of a header is read as what follows its marker, trimmed. -/
theorem constraint_of_goBuild {line : String} (hgo : h.goBuild = some line) :
    ∃ rest, line.toList = Directive.modernMarker ++ rest ∧
      h.constraint = (Directive.parseModern (Text.trim Text.isBlank rest)).map some := by
  obtain ⟨hmem, hcounts⟩ := mem_comments_of_goBuild hread hgo
  obtain ⟨rest, hrest, hblank⟩ := isGoBuildComment_iff.1 hcounts
  have htext : Directive.modernText? line.toList = some (Text.trim Text.isBlank rest) :=
    (Directive.modernText?_eq_some_iff (newline_not_mem_of_mem_comments hmem)).2
      ⟨rest, hrest, fun c hc => Text.isBlank_of_isAsciiBlank (hblank c hc), rfl⟩
  refine ⟨rest, hrest, ?_⟩
  simp only [constraint, hgo, Directive.parseLine, htext]

/-- Without a `//go:build` line, a constraint is unreadable only by its size. -/
theorem eq_tooComplex_of_constraint {e : ConstraintError} (hgo : h.goBuild = none)
    (he : h.constraint = .error e) : e = .tooComplex := by
  simp only [constraint, hgo] at he
  split at he
  · obtain ⟨line, hline, hfault⟩ := Except.exists_of_mapM_eq_error (Except.map_eq_error_iff.1 he)
    exact Directive.eq_tooComplex_of_isLegacy (isLegacy_of_mem_plusBuild hread hline) hfault
  · exact (Except.error.inj he).symm

theorem isTextError_of_constraint {e : ConstraintError} (he : h.constraint = .error e) :
    Directive.IsTextError e := by
  cases hgo : h.goBuild with
  | none => exact .inl (eq_tooComplex_of_constraint hread hgo he)
  | some line =>
    obtain ⟨rest, -, heq⟩ := constraint_of_goBuild hread hgo
    rw [heq, Except.map_eq_error_iff] at he
    exact Directive.isTextError_of_parseModern he

/-- The `// +build` lines can be read unless one of them is too long. -/
theorem mapM_parseLine_eq_tooComplex_iff :
    h.plusBuild.mapM Directive.parseLine = .error .tooComplex ↔
      ∃ line ∈ h.plusBuild, Directive.IsLongLine line.toList := by
  have honly : ∀ line ∈ h.plusBuild, ∀ e, Directive.parseLine line = .error e → e = .tooComplex :=
    fun line hline e => Directive.eq_tooComplex_of_isLegacy (isLegacy_of_mem_plusBuild hread hline)
  rw [Except.mapM_eq_error_iff honly]
  exact exists_congr fun line => and_congr_right fun hline =>
    Directive.parseLine_eq_tooComplex_iff (newline_not_mem_of_mem_plusBuild hread hline)
      (isLegacy_of_mem_plusBuild hread hline)

/-- Without a `//go:build` line, a constraint is refused exactly if there are too many `// +build`
lines or one of them is too long. -/
theorem constraint_eq_tooComplex_iff (hgo : h.goBuild = none) :
    h.constraint = .error .tooComplex ↔ h.IsLarge := by
  rw [IsLarge, ← mapM_parseLine_eq_tooComplex_iff hread]
  simp only [constraint, hgo]
  split
  · rename_i hle
    have hfew : ¬ 1000 < h.plusBuild.length := Nat.not_lt.2 hle
    rw [Except.map_eq_error_iff, or_iff_right hfew]
  · rename_i hgt
    have hmany : 1000 < h.plusBuild.length := Nat.not_le.1 hgt
    simp [hmany]

/-- A constraint that is not too large is that of the `// +build` lines. -/
theorem constraint_eq_conj? (hgo : h.goBuild = none) (hsize : ¬ h.IsLarge) :
    ∃ xs, h.plusBuild.mapM Directive.parseLine = .ok xs ∧ h.constraint = .ok (Expr.conj? xs) := by
  have hok : ∃ x?, h.constraint = .ok x? := by
    cases hx : h.constraint with
    | ok x? => exact ⟨x?, rfl⟩
    | error e =>
      rw [eq_tooComplex_of_constraint hread hgo hx] at hx
      exact absurd ((constraint_eq_tooComplex_iff hread hgo).1 hx) hsize
  obtain ⟨x?, hx⟩ := hok
  have hmap : (h.plusBuild.mapM Directive.parseLine).map Expr.conj? = .ok x? := by
    simp only [constraint, hgo] at hx
    split at hx
    · exact hx
    · cases hx
  obtain ⟨xs, hxs, rfl⟩ := Except.map_eq_ok_iff.1 hmap
  exact ⟨xs, hxs, hx⟩

/-- Lines that are not too large have a constraint, which is true exactly where all of them are. -/
theorem exists_constraint_eq_some (hgo : h.goBuild = none) (hne : h.plusBuild ≠ [])
    (hsize : ¬ h.IsLarge) :
    ∃ x, h.constraint = .ok (some x) ∧ ∀ v, x.eval v = true ↔ h.LinesTrue v := by
  obtain ⟨xs, hxs, hconstraint⟩ := constraint_eq_conj? hread hgo hsize
  cases hconj : Expr.conj? xs with
  | none =>
    rw [hconj, constraint_eq_none_iff hgo] at hconstraint
    exact absurd hconstraint hne
  | some x =>
    refine ⟨x, hconj ▸ hconstraint, fun v => ?_⟩
    have hvalue : x.eval v = xs.all (Expr.eval v) := by
      rw [← Expr.eval_conj? v xs, hconj, Option.elim_some]
    rw [hvalue, List.all_eq_true, Except.forall_mem_of_mapM hxs]
    refine forall₂_congr fun line hline => ?_
    have hparse : ∀ {y : Expr}, Directive.parseLine line = .ok y ↔
        ∃ text, Directive.IsLegacyLine line.toList text ∧ Directive.parseLegacy text = .ok y :=
      Directive.parseLine_eq_iff (newline_not_mem_of_mem_plusBuild hread hline)
        (isLegacy_of_mem_plusBuild hread hline)
    constructor
    · rintro ⟨y, hy, htrue⟩
      obtain ⟨text, htext, hy⟩ := hparse.1 hy
      exact ⟨text, y, htext, hy, htrue⟩
    · rintro ⟨text, y, htext, hy, htrue⟩
      exact ⟨y, hparse.2 ⟨text, htext, hy⟩, htrue⟩

end

/-- **The outcomes of reading a constraint.** No line of a header is refused as no directive. With a
`//go:build` line the outcome is that of its text, trimmed. Without one there is no constraint if
there are no `// +build` lines, and they are refused if they are too large; else they have a
constraint that is true exactly where all of them are. -/
theorem constraint_cases {content : List UInt8} {h : Header} (hread : ofContent content = .ok h) :
    (h.constraint ≠ .error .notConstraint ∧ h.constraint ≠ .error .multipleGoBuild ∧
        h.constraint ≠ .error .missingPackage) ∧
      (∀ line, h.goBuild = some line → ∃ rest, line.toList = Directive.modernMarker ++ rest ∧
        h.constraint = (Directive.parseModern (Text.trim Text.isBlank rest)).map some) ∧
      (h.goBuild = none →
        (h.constraint = .ok none ↔ h.plusBuild = []) ∧
        (h.constraint = .error .tooComplex ↔ h.IsLarge) ∧
        (h.plusBuild ≠ [] → ¬ h.IsLarge →
          ∃ x, h.constraint = .ok (some x) ∧ ∀ v, x.eval v = true ↔ h.LinesTrue v)) := by
  have hnot : ∀ e, ¬ Directive.IsTextError e → h.constraint ≠ .error e :=
    fun e hne he => hne (isTextError_of_constraint hread he)
  refine ⟨⟨hnot _ ?_, hnot _ ?_, hnot _ ?_⟩, fun line hgo => constraint_of_goBuild hread hgo,
    fun hgo => ⟨constraint_eq_none_iff hgo, constraint_eq_tooComplex_iff hread hgo,
      exists_constraint_eq_some hread hgo⟩⟩
  all_goals simp [Directive.IsTextError]

/-- Blanks that are not ASCII ones stay at the ends of lines, and are no part of their texts. -/
theorem constraint_cases_blanks :
    (∃ h, ofContent "//go:build\t\u00a0linux\u3000\n\npackage a\n".toUTF8.toList = .ok h ∧
      h.goBuild = some "//go:build\t\u00a0linux\u3000" ∧
      ∃ rest, "//go:build\t\u00a0linux\u3000".toList = Directive.modernMarker ++ rest ∧
        h.constraint = (Directive.parseModern (Text.trim Text.isBlank rest)).map some) ∧
    ∃ h, ofContent "// +build linux\u00a0\n//+build\tarm\n\npackage a\n".toUTF8.toList = .ok h ∧
      h.plusBuild = ["// +build linux\u00a0", "//+build\tarm"] ∧
      ∃ x, h.constraint = .ok (some x) ∧ ∀ v, x.eval v = true ↔ h.LinesTrue v := by
  constructor
  · let h : Header := { goBuild := some "//go:build\t\u00a0linux\u3000" }
    have hread : ofContent "//go:build\t\u00a0linux\u3000\n\npackage a\n".toUTF8.toList =
        .ok h := by decide +kernel
    exact ⟨h, hread, rfl, (constraint_cases hread).2.1 _ rfl⟩
  · let h : Header := { plusBuild := ["// +build linux\u00a0", "//+build\tarm"] }
    have hread : ofContent "// +build linux\u00a0\n//+build\tarm\n\npackage a\n".toUTF8.toList =
        .ok h := by decide +kernel
    have hsize : ¬ h.IsLarge := by
      rw [← constraint_eq_tooComplex_iff hread rfl]
      decide +kernel
    obtain ⟨-, -, hlegacy⟩ := constraint_cases hread
    exact ⟨h, hread, rfl, (hlegacy rfl).2.2 (List.cons_ne_nil _ _) hsize⟩

end Source.Header

end GoBuild
