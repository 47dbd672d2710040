import GoBuild.Proofs.Selection.Record

/-!
# The tags that a file mentions

Which tags a file mentions (`mem_mentionedTags_iff`). The checks of its name and its header consult
no others, and contexts that agree on them agree on whether the file is selected
(`Context.consults_only_mentionedTags`).
-/

namespace GoBuild

open Source

variable {path : String} {content : List UInt8}

/-- The mentioned tags are those that the name demands and those of the readable directives. -/
theorem mem_mentionedTags_iff {t : String} :
    t ∈ mentionedTags path content ↔ t ∈ (Mandate.ofPath path).tags ∨
      ∃ h, Header.ofContent content = .ok h ∧
        ∃ line ∈ h.directives, ∃ x, Directive.parseLine line = .ok x ∧ t ∈ x.atoms := by
  unfold mentionedTags
  cases hread : Header.ofContent content with
  | error e => simp
  | ok h =>
    simp only [TagSet.mem_ofList, List.mem_append, Header.mentioned, List.mem_flatMap,
      List.mem_filterMap, Except.toOption_eq_some_iff, Except.ok.injEq, exists_eq_left']
    refine or_congr_right ⟨?_, ?_⟩
    · rintro ⟨x, ⟨line, hline, hx⟩, ht⟩
      exact ⟨line, hline, x, hx, ht⟩
    · rintro ⟨line, hline, x, hx, ht⟩
      exact ⟨x, ⟨line, hline, hx⟩, ht⟩

namespace Context

variable {c d : Context} {h : Header}

theorem mem_directives_of_goBuild {line : String} (hgo : h.goBuild = some line) :
    line ∈ h.directives := by
  simp [Header.directives, hgo]

/-- The check of a header consults tags of its readable directives only. -/
theorem mem_atoms_of_checkHeader {check : HeaderCheck} (hcheck : c.checkHeader h = .ok check)
    {t : String} (ht : t ∈ check.selected.consulted) :
    ∃ line ∈ h.directives, ∃ x, Directive.parseLine line = .ok x ∧ t ∈ x.atoms := by
  rw [checkHeader_eq] at hcheck
  cases hgo : h.goBuild with
  | some line =>
    simp only [hgo] at hcheck
    obtain ⟨x, hx, rfl⟩ := Except.map_eq_ok_iff.1 hcheck
    exact ⟨line, mem_directives_of_goBuild hgo, x, hx, Expr.mem_tags.1 ht⟩
  | none =>
    simp only [hgo] at hcheck
    cases hcheck
    obtain ⟨x, hx, ht⟩ := List.mem_flatMap.1 (TagSet.mem_ofList.1 ht)
    obtain ⟨line, hline, hparse⟩ := List.mem_filterMap.1 hx
    exact ⟨line, List.mem_append_right _ hline, x, Except.toOption_eq_some_iff.1 hparse, ht⟩

theorem all_congr_of_mem {α : Type} {p q : α → Bool} {xs : List α} (h : ∀ x ∈ xs, p x = q x) :
    xs.all p = xs.all q := by
  rw [Bool.eq_iff_iff, List.all_eq_true, List.all_eq_true]
  exact forall₂_congr fun x hx => by rw [h x hx]

/-- The check of a header depends on the context only through the values of its readable
directives. -/
theorem checkHeader_congr (hagree : ∀ line ∈ h.directives, ∀ x,
    Directive.parseLine line = .ok x → c.holds x = d.holds x) :
    c.checkHeader h = d.checkHeader h := by
  cases hgo : h.goBuild with
  | some line =>
    cases hread : Directive.parseLine line with
    | error e =>
      simp only [checkHeader_eq, hgo, hread]
      rfl
    | ok x =>
      have hx : c.holds x = d.holds x := hagree line (mem_directives_of_goBuild hgo) x hread
      simp only [checkHeader_eq, hgo, hread, Except.map, hx]
  | none =>
    simp only [checkHeader_eq, hgo]
    rw [all_congr_of_mem fun x hx => ?_]
    obtain ⟨line, hline, hparse⟩ := List.mem_filterMap.1 hx
    exact hagree line (List.mem_append_right _ hline) x (Except.toOption_eq_some_iff.1 hparse)

/-- The checks consult mentioned tags only, and contexts that agree on the mentioned tags agree on
whether the file is selected, or on the error. -/
theorem consults_only_mentionedTags (path : String) (content : List UInt8) :
    (∀ c : Context, ∀ t ∈ (c.nameCheck path).consulted, t ∈ mentionedTags path content) ∧
      (∀ (c : Context) (check : HeaderCheck), c.headerCheck content = .ok check →
        ∀ t ∈ check.selected.consulted, t ∈ mentionedTags path content) ∧
      ∀ c d : Context, (∀ t ∈ mentionedTags path content, c.satisfies t = d.satisfies t) →
        c.selects path content = d.selects path content := by
  refine ⟨fun c t ht => ?_, fun c check hcheck t ht => ?_, fun c d hagree => ?_⟩
  · rw [nameCheck_eq] at ht
    exact mem_mentionedTags_iff.2 (.inl (TagSet.mem_ofList.1 ht))
  · obtain ⟨h, hread, hcheck⟩ := Except.bind_eq_ok_iff.1 hcheck
    exact mem_mentionedTags_iff.2 (.inr ⟨h, hread, mem_atoms_of_checkHeader hcheck ht⟩)
  · have hname : c.admitsName path = d.admitsName path := by
      simp only [admitsName, nameCheck_eq]
      exact all_congr_of_mem fun t ht => hagree t (mem_mentionedTags_iff.2 (.inl ht))
    have hheader : c.headerCheck content = d.headerCheck content := by
      unfold headerCheck
      cases hread : Header.ofContent content with
      | error e => rfl
      | ok h =>
        rw [Except.ok_bind, Except.ok_bind]
        have hholds : ∀ line ∈ h.directives, ∀ x, Directive.parseLine line = .ok x →
            c.holds x = d.holds x := fun line hline x hx => Expr.eval_congr fun t ht =>
          hagree t (mem_mentionedTags_iff.2 (.inr ⟨h, hread, line, hline, x, hx, ht⟩))
        exact checkHeader_congr hholds
    simp only [selects, hname, hheader]

theorem consults_only_mentionedTags_linux :
    let path := "a_linux.go"
    let content := "//go:build purego || !go1.18\n\npackage a\n".toUTF8.toList
    let c : Context := { os := "linux", arch := "amd64", buildTags := .ofList ["purego"] }
    let d : Context := { os := "linux", arch := "arm64", buildTags := .ofList ["purego", "race"] }
    mentionedTags path content = .ofList ["go1.18", "linux", "purego"] ∧
      c.selects path content = .ok true ∧ d.selects path content = .ok true := by
  intro path content c d
  have htags : mentionedTags path content = .ofList ["go1.18", "linux", "purego"] := by
    decide +kernel
  have hagree : ∀ t ∈ mentionedTags path content, c.satisfies t = d.satisfies t := by
    intro t ht
    rw [htags, TagSet.mem_ofList] at ht
    simp only [List.mem_cons, List.not_mem_nil, or_false] at ht
    rcases ht with rfl | rfl | rfl <;> decide +kernel
  have hselects : c.selects path content = .ok true := by decide +kernel
  exact ⟨htags, hselects, ((consults_only_mentionedTags path content).2.2 c d hagree) ▸ hselects⟩

end Context

end GoBuild
