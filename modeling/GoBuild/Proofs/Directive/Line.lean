import GoBuild.Directive.Line
import GoBuild.Proofs.Directive.Counting
import GoBuild.Proofs.Text.Lines

/-!
# Reading directive lines

A line is a directive of either kind if a blank or nothing follows the marker of that kind, and its
text is what follows, trimmed (`modernText?_eq_some_iff`, `legacyText?_eq_some_iff`). No line is a
directive of both kinds (`modernText?_of_isLegacy`). A `//go:build` line can be malformed or too long
(`isTextError_of_parseModern`), a `// +build` line too long but not malformed
(`eq_tooComplex_of_isLegacy`).
-/

namespace GoBuild.Directive

/-! ### What a directive line is -/

/-- The line is a `//go:build` line with the text. -/
def IsModernLine (line text : List Char) : Prop :=
  ∃ rest, line = modernMarker ++ rest ∧ (∀ c ∈ rest.head?, Text.isBlank c = true) ∧
    Text.trim Text.isBlank rest = text

/-- The line is a `// +build` line with the text. Blanks may stand before the marker. -/
def IsLegacyLine (line text : List Char) : Prop :=
  ∃ gap rest, line = commentMarker ++ gap ++ legacyMarker ++ rest ∧
    (∀ c ∈ gap, Text.isBlank c = true) ∧ (∀ c ∈ rest.head?, Text.isBlank c = true) ∧
    Text.trim Text.isBlank rest = text

theorem singleLine?_eq {line : List Char} (h : '\n' ∉ line) : singleLine? line = some line := by
  have hlast : line.getLast? ≠ some '\n' := fun hlast => h (List.mem_of_getLast? hlast)
  simp [singleLine?, hlast, h]

theorem textAfterMarker?_eq_some_iff {rest text : List Char} :
    textAfterMarker? rest = some text ↔
      (∀ c ∈ rest.head?, Text.isBlank c = true) ∧ Text.trim Text.isBlank rest = text := by
  cases rest with
  | nil => simp [textAfterMarker?, Text.trim, Text.trimStart, Text.trimEnd]
  | cons c rest => cases hc : Text.isBlank c <;> simp [textAfterMarker?, hc]

/-- Whether the line is trimmed at its end before or after the marker is taken off is the same. -/
theorem textAfterMarker?_trimEnd_eq_some_iff {rest text : List Char} :
    textAfterMarker? (Text.trimEnd Text.isBlank rest) = some text ↔
      (∀ c ∈ rest.head?, Text.isBlank c = true) ∧ Text.trim Text.isBlank rest = text := by
  rw [textAfterMarker?_eq_some_iff, Text.trim_trimEnd]
  refine and_congr_left fun _ => ?_
  cases rest with
  | nil => rfl
  | cons c rest =>
    cases hc : Text.isBlank c with
    | false =>
      have hkeep := Text.trimEnd_append_cons_of_neg hc [] rest
      rw [List.nil_append, List.nil_append] at hkeep
      simp [hkeep]
    | true =>
      obtain ⟨tail, htail⟩ := Text.trimEnd_prefix (p := Text.isBlank) (c :: rest)
      simp only [List.head?_cons, Option.mem_some_iff, forall_eq', hc, iff_true]
      intro d hd
      obtain ⟨more, hmore⟩ := List.head?_eq_some_iff.1 hd
      rw [hmore] at htail
      rwa [(List.cons.inj htail).1]

theorem modernText?_eq_some_iff {line text : List Char} (h : '\n' ∉ line) :
    modernText? line = some text ↔ IsModernLine line text := by
  simp only [modernText?, singleLine?_eq h, Option.bind_eq_bind, Option.bind_some,
    Option.bind_eq_some_iff, Text.after?_eq_some_iff, textAfterMarker?_trimEnd_eq_some_iff,
    IsModernLine]

/-- The marker is found by trimming what follows the slashes. -/
theorem trim_gap_append {gap : List Char} (hgap : ∀ c ∈ gap, Text.isBlank c = true)
    (rest : List Char) :
    Text.trim Text.isBlank (gap ++ legacyMarker ++ rest) =
      legacyMarker ++ Text.trimEnd Text.isBlank rest := by
  have hfirst : Text.isBlank '+' = false := rfl
  have hlast : Text.isBlank 'd' = false := rfl
  rw [List.append_assoc, Text.trim_append_of_forall_front hgap]
  exact (Text.trim_cons_of_neg hfirst _).trans
    (congrArg ('+' :: ·) (Text.trimEnd_append_cons_of_neg hlast "buil".toList rest))

theorem legacyText?_eq_some_iff {line text : List Char} (h : '\n' ∉ line) :
    legacyText? line = some text ↔ IsLegacyLine line text := by
  simp only [legacyText?, singleLine?_eq h, Option.bind_eq_bind, Option.bind_some,
    Option.bind_eq_some_iff, Text.after?_eq_some_iff]
  constructor
  · rintro ⟨comment, rfl, rest, hrest, htext⟩
    obtain ⟨gap, back, hcomment, hgap, hback⟩ :=
      Text.exists_eq_append_trim_append (p := Text.isBlank) comment
    rw [hrest] at hcomment
    have hend : legacyMarker ++ Text.trimEnd Text.isBlank (rest ++ back) = legacyMarker ++ rest := by
      rw [← trim_gap_append hgap, ← hrest, hcomment, List.append_assoc, List.append_assoc,
        List.append_assoc]
    rw [← List.append_cancel_left hend, textAfterMarker?_trimEnd_eq_some_iff] at htext
    exact ⟨gap, rest ++ back, by rw [hcomment]; simp, hgap, htext⟩
  · rintro ⟨gap, rest, rfl, hgap, htext⟩
    refine ⟨gap ++ legacyMarker ++ rest, by simp, _, trim_gap_append hgap rest, ?_⟩
    rwa [textAfterMarker?_trimEnd_eq_some_iff]

/-! ### Written directive lines -/

/-- The `//go:build` line with the given text. -/
def modernLine (text : List Char) : List Char := modernMarker ++ ' ' :: text

/-- The `// +build` line with the given text. -/
def legacyLine (text : List Char) : List Char :=
  commentMarker ++ ' ' :: (legacyMarker ++ ' ' :: text)

theorem tight_modernMarker : Text.Tight Text.isBlank modernMarker :=
  .of_all (by decide) rfl

theorem tight_commentMarker : Text.Tight Text.isBlank commentMarker :=
  .of_all (by decide) rfl

section

variable {text : List Char}

theorem isBlank_space : Text.isBlank ' ' = true := rfl

theorem newline_not_mem_modernLine (h : '\n' ∉ text) : '\n' ∉ modernLine text := by
  have hmarker : '\n' ∉ modernMarker := by decide
  simp [modernLine, hmarker, h]

theorem newline_not_mem_legacyLine (h : '\n' ∉ text) : '\n' ∉ legacyLine text := by
  have hcomment : '\n' ∉ commentMarker := by decide
  have hmarker : '\n' ∉ legacyMarker := by decide
  simp [legacyLine, hcomment, hmarker, h]

variable (hline : '\n' ∉ text) (htight : Text.Tight Text.isBlank text)
include hline htight

theorem modernText?_modernLine : modernText? (modernLine text) = some text := by
  rw [modernText?_eq_some_iff (newline_not_mem_modernLine hline)]
  exact ⟨' ' :: text, rfl, by simp [isBlank_space], htight.trim_cons_eq isBlank_space⟩

theorem legacyText?_legacyLine : legacyText? (legacyLine text) = some text := by
  rw [legacyText?_eq_some_iff (newline_not_mem_legacyLine hline)]
  exact ⟨[' '], ' ' :: text, rfl, by simp [isBlank_space], by simp [isBlank_space],
    htight.trim_cons_eq isBlank_space⟩

omit htight in
/-- A `// +build` line is no `//go:build` line. -/
theorem modernText?_legacyLine : modernText? (legacyLine text) = none := by
  have hnone : Text.after? modernMarker (legacyLine text) = none := rfl
  simp [modernText?, singleLine?_eq (newline_not_mem_legacyLine hline), hnone]

theorem parseLine_modernLine :
    parseLine (String.ofList (modernLine text)) = parseModern text := by
  rw [parseLine, String.toList_ofList, modernText?_modernLine hline htight]

theorem parseLine_legacyLine :
    parseLine (String.ofList (legacyLine text)) = parseLegacy text := by
  rw [parseLine, String.toList_ofList, modernText?_legacyLine hline,
    legacyText?_legacyLine hline htight]

theorem isLegacy_legacyLine : isLegacy (String.ofList (legacyLine text)) = true := by
  rw [isLegacy, String.toList_ofList, legacyText?_legacyLine hline htight, Option.isSome_some]

end

/-! ### Errors of the modern form -/

/-- The error tells what is wrong with the text of a directive. -/
def IsTextError (e : ConstraintError) : Prop :=
  e = .tooComplex ∨ ∃ offset fault, e = .malformed offset fault

namespace Machine

variable {m : Machine} {e : ConstraintError}

theorem isTextError_of_beginOperand {level : Level} {outer : List (Nat × Level)}
    (h : m.beginOperand level outer = .error e) : IsTextError e := by
  unfold beginOperand at h
  split at h
  · cases h
  · exact .inl (Except.error.inj h).symm

theorem isTextError_of_step {l : Lexeme} (h : m.step l = .error e) : IsTextError e := by
  obtain ⟨t, loc⟩ := l
  obtain ⟨n, level, outer, phase⟩ := m
  cases phase with
  | operand | negated =>
    cases t with
    | tag => cases h
    | openParen => exact isTextError_of_beginOperand h
    | not | and | or | closeParen | stray => cases h <;> exact .inr ⟨_, _, rfl⟩
  | complete x =>
    cases t with
    | and | or => exact isTextError_of_beginOperand h
    | tag | not | openParen | closeParen | stray =>
      cases outer <;> cases h <;> exact .inr ⟨_, _, rfl⟩

theorem isTextError_of_finish {offset : Nat} (h : m.finish offset = .error e) : IsTextError e := by
  obtain ⟨n, level, outer, phase⟩ := m
  cases phase <;> cases outer <;> cases h <;> exact .inr ⟨_, _, rfl⟩

end Machine

/-- A `//go:build` line can be malformed or too long. -/
theorem isTextError_of_parseModern {text : List Char} {e : ConstraintError}
    (h : parseModern text = .error e) : IsTextError e := by
  rw [parseModern] at h
  cases hrun : (Lexeme.scan text).foldlM Machine.step .start with
  | error e' =>
    rw [hrun, Except.error_bind] at h
    cases h
    exact Except.of_foldlM_eq_error (fun _ _ _ => Machine.isTextError_of_step) hrun
  | ok m =>
    rw [hrun, Except.ok_bind] at h
    exact Machine.isTextError_of_finish h

/-! ### Lines of the legacy form -/

/-- A `// +build` line is read as one and not as a `//go:build` line. -/
theorem modernText?_of_isLegacy {line : String} (h : isLegacy line = true) :
    modernText? line.toList = none := by
  obtain ⟨text, htext⟩ := Option.isSome_iff_exists.1 h
  simp only [legacyText?, Option.bind_eq_bind, Option.bind_eq_some_iff] at htext
  obtain ⟨body, hbody, comment, hcomment, rest, hrest, -⟩ := htext
  rw [Text.after?_eq_some_iff] at hcomment hrest
  have hnone : Text.after? modernMarker body = none := by
    refine Option.eq_none_iff_forall_ne_some.2 fun tail htail => ?_
    rw [Text.after?_eq_some_iff, hcomment] at htail
    -- What follows `//` would begin with a letter, and so would it after trimming.
    obtain ⟨tail', rfl⟩ : ∃ tail', comment = 'g' :: tail' :=
      ⟨"o:build".toList ++ tail, List.append_cancel_left htail⟩
    rw [Text.trim_cons_of_neg (by decide)] at hrest
    exact absurd (List.cons.inj hrest).1 (by decide)
  simp [modernText?, hbody, hnone]

theorem parseLine_of_legacyText? {line : String} {text : List Char}
    (h : legacyText? line.toList = some text) : parseLine line = parseLegacy text := by
  have hlegacy : isLegacy line = true := Option.isSome_iff_exists.2 ⟨text, h⟩
  rw [parseLine, modernText?_of_isLegacy hlegacy, h]

theorem exists_parseLine_eq_parseLegacy {line : String} (h : isLegacy line = true) :
    ∃ text, parseLine line = parseLegacy text := by
  obtain ⟨text, htext⟩ := Option.isSome_iff_exists.1 h
  exact ⟨text, parseLine_of_legacyText? htext⟩

/-- The only way in which a `// +build` line can fail is by its size. -/
theorem eq_tooComplex_of_isLegacy {line : String} (h : isLegacy line = true) {e : ConstraintError}
    (he : parseLine line = .error e) : e = .tooComplex := by
  obtain ⟨text, htext⟩ := exists_parseLine_eq_parseLegacy h
  rw [htext, parseLegacy_eq] at he
  split at he
  · cases he
  · exact (Except.error.inj he).symm

end GoBuild.Directive
