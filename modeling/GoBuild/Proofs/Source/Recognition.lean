import GoBuild.Proofs.Directive.Line
import GoBuild.Proofs.Source.Comments

/-!
# Two readings of the `//go:build` marker

A line comment of a header counts as a `//go:build` line if an ASCII blank or nothing follows the
marker (`Header.isGoBuildComment`), and a line is a directive if any blank or nothing does
(`Directive.isModern`). So the header passes over those directives, and only those, in which a blank
outside of ASCII or a vertical tab follows the marker (`Header.isGoBuildComment_iff_isModern`).
-/

namespace GoBuild

namespace Directive

/-- A line is a directive if a blank or nothing follows the marker. -/
theorem isModern_iff {line : List Char} (h : '\n' ∉ line) :
    isModern (String.ofList line) = true ↔
      ∃ rest, line = modernMarker ++ rest ∧ ∀ c ∈ rest.head?, Text.isBlank c = true := by
  simp only [isModern, String.toList_ofList, Option.isSome_iff_exists, modernText?_eq_some_iff h]
  constructor
  · rintro ⟨text, rest, hline, hrest, -⟩
    exact ⟨rest, hline, hrest⟩
  · rintro ⟨rest, hline, hrest⟩
    exact ⟨_, rest, hline, hrest, rfl⟩

end Directive

namespace Source

/-- A blank that is no ASCII blank follows the marker at the beginning of the line. -/
def HasWideGap (line : List Char) : Prop :=
  ∃ c rest, line = Directive.modernMarker ++ c :: rest ∧ Text.isBlank c = true ∧
    Text.isAsciiBlank c = false

namespace Header

/-- A comment counts as a `//go:build` line if an ASCII blank or nothing follows the marker. -/
theorem isGoBuildComment_iff {line : List Char} :
    isGoBuildComment line = true ↔ ∃ rest, line = Directive.modernMarker ++ rest ∧
      ∀ c ∈ rest.head?, Text.isAsciiBlank c = true := by
  simp only [← Text.after?_eq_some_iff, isGoBuildComment]
  cases Text.after? Directive.modernMarker line with
  | none => simp
  | some rest => cases rest <;> simp

end Header

/-! ### Comments are single lines -/

theorem newline_not_mem_of_mem_freshComments {fresh : Bool} {pieces : List Piece} {e : Ending}
    {line : List UInt8} (h : line ∈ freshComments fresh pieces e) : newline ∉ line := by
  have hline {fresh : Bool} {body : List UInt8} (hbody : newline ∉ body)
      (hmem : line ∈ if fresh then [slash :: slash :: body] else []) : newline ∉ line := by
    split at hmem
    · rw [List.mem_singleton.1 hmem]
      exact List.not_mem_cons_of_ne_of_not_mem (by decide)
        (List.not_mem_cons_of_ne_of_not_mem (by decide) hbody)
    · cases hmem
  induction pieces generalizing fresh with
  | nil =>
    cases e with
    | line body hbody => exact hline hbody h
    | _ => cases h
  | cons p pieces ih =>
    cases p with
    | line body hbody => exact (List.mem_append.1 h).elim (hline hbody) ih
    | _ => exact ih h

theorem newline_not_mem_lineText {line : List UInt8} (h : newline ∉ line) : '\n' ∉ lineText line :=
  newline_mem_decodeLossy_iff.not.2 fun hmem => h (Text.mem_of_mem_trim hmem)

namespace Header

theorem newline_not_mem_of_mem_comments {content : List UInt8} {line : List Char}
    (h : line ∈ comments (Text.lines (text content))) : '\n' ∉ line := by
  obtain ⟨r, hr⟩ := Region.exists_bytes_eq (unmarked content)
  rw [text_eq_decodeLossy, ← hr, r.comments_lines, List.mem_map] at h
  obtain ⟨bytes, hbytes, rfl⟩ := h
  exact newline_not_mem_lineText (newline_not_mem_of_mem_freshComments hbytes)

/-- A comment of a file counts as a `//go:build` line if and only if it is a directive and no blank
outside of ASCII follows its marker. -/
theorem isGoBuildComment_iff_isModern {content : List UInt8} {line : List Char}
    (h : line ∈ comments (Text.lines (text content))) :
    (isGoBuildComment line = true ↔
      Directive.isModern (String.ofList line) = true ∧ ¬ HasWideGap line) ∧
    (HasWideGap line → Directive.isModern (String.ofList line) = true) := by
  rw [isGoBuildComment_iff, Directive.isModern_iff (newline_not_mem_of_mem_comments h)]
  refine ⟨⟨?_, ?_⟩, ?_⟩
  · rintro ⟨rest, rfl, hrest⟩
    refine ⟨⟨rest, rfl, fun c hc => Text.isBlank_of_isAsciiBlank (hrest c hc)⟩, ?_⟩
    rintro ⟨c, more, heq, -, hc⟩
    rw [List.append_cancel_left heq] at hrest
    rw [hrest c rfl] at hc
    cases hc
  · rintro ⟨⟨rest, rfl, hrest⟩, hgap⟩
    refine ⟨rest, rfl, fun c hc => ?_⟩
    obtain ⟨more, rfl⟩ := List.head?_eq_some_iff.1 hc
    exact by_contra fun hnot => hgap ⟨c, more, rfl, hrest c rfl, Bool.eq_false_iff.2 hnot⟩
  · rintro ⟨c, rest, rfl, hc, -⟩
    exact ⟨c :: rest, rfl, by simpa using hc⟩

theorem isGoBuildComment_iff_isModern_linux :
    (isGoBuildComment "//go:build linux".toList = true ↔
      Directive.isModern "//go:build linux" = true ∧ ¬ HasWideGap "//go:build linux".toList) ∧
    (HasWideGap "//go:build linux".toList → Directive.isModern "//go:build linux" = true) := by
  have h : "//go:build linux".toList ∈
      comments (Text.lines (text (Text.encode "//go:build linux\n".toList))) := by decide +kernel
  exact isGoBuildComment_iff_isModern h

/-- With a no-break space after the marker, a directive does not count, and nothing restricts the
file. -/
theorem isGoBuildComment_eq_false_of_no_break_space :
    let content := Text.encode "//go:build\u00a0linux\n\npackage p\n".toList
    let line := "//go:build\u00a0linux".toList
    line ∈ comments (Text.lines (text content)) ∧
      Directive.isModern (String.ofList line) = true ∧ isGoBuildComment line = false ∧
      ofContent content = .ok {} := by
  decide +kernel

end Header

end Source

end GoBuild
