import GoBuild.Proofs.Search.Completeness

/-!
# Values in the adjusted context

In the adjusted context every experiment and every tag of the user has the value that its first
occurrence asks for (`Problem.satisfies_adjusted_of_isExperimentTag`,
`Problem.satisfies_adjusted_of_ordinary`). The exception is `boringcrypto`, which can be set like any
tag of the user but also stands for an experiment: it may hold although its first occurrence is
negative (`Problem.satisfies_adjusted_iff`, `Problem.satisfies_adjusted_boringcrypto`).
-/

namespace GoBuild

/-- The first occurrence of the tag in the expression is positive. -/
def Expr.FirstPositive (x : Expr) (t : String) : Prop :=
  x.occurrences.find? (·.1 = t) = some (t, .positive)

instance (x : Expr) (t : String) : Decidable (x.FirstPositive t) :=
  inferInstanceAs (Decidable (_ = _))

theorem Expr.firstPositive_iff {x : Expr} {t : String} {d : Polarity} (hd : x.lookup t = some d) :
    x.FirstPositive t ↔ d.isPositive = true := by
  rw [FirstPositive, ← lookup_eq_some_iff, hd]
  cases d <;> simp [Polarity.isPositive]

theorem Expr.not_firstPositive {x : Expr} {t : String} (ht : t ∉ x.atoms) : ¬ x.FirstPositive t :=
  fun h => ht (mem_atoms_of_mem_occurrences (mem_occurrences_of_lookup (lookup_eq_some_iff.2 h)))

/-- The tag `boringcrypto` holds if it is set, or if the release knows it as the old name of an
experiment that is set. -/
theorem Context.satisfies_boringcrypto_iff {c : Context} (hc : c.OnKnownPlatform)
    (hcompiler : isCompiler c.compiler = true) :
    c.satisfies boringcryptoTag = true ↔
      c.hasTag boringcryptoTag = true ∨
        (c.knowsAliases = true ∧ c.hasTag boringcryptoExperiment = true) := by
  rw [satisfies_iff]
  constructor
  · rintro (⟨-, h⟩ | (h | h | h) | h | ⟨-, h, -⟩ | ⟨halias, -, hexp⟩ | h)
    · exact absurd h (by decide)
    · exact absurd (h ▸ hc.os) (by decide)
    · exact absurd (h ▸ hc.arch) (by decide)
    · exact absurd (h ▸ hcompiler) (by decide)
    · exact absurd (isKnownOs_of_impliedOs? h) (by decide)
    · exact absurd h (by decide)
    · exact .inr ⟨halias, hexp⟩
    · exact .inl h
  · rintro (h | ⟨halias, hexp⟩)
    · exact .inr (.inr (.inr (.inr (.inr h))))
    · exact .inr (.inr (.inr (.inr (.inl ⟨halias, rfl, hexp⟩))))

namespace Problem

variable {p : Problem} {t : String} {d : Polarity}

theorem onKnownPlatform_adjusted (h : p.base.OnKnownPlatform) : p.adjusted.OnKnownPlatform := by
  rw [adjusted_eq]
  exact ⟨h.os, h.arch⟩

/-- A tag of the user holds in the adjusted context exactly if its first occurrence asks for it. -/
theorem satisfies_adjusted_of_ordinary (hbase : p.base.OnKnownPlatform)
    (hcompiler : isCompiler p.base.compiler = true) (ht : p.isInternal t = false)
    (hboring : t ≠ boringcryptoTag) (hd : p.expr.lookup t = some d) :
    p.adjusted.satisfies t = d.isPositive :=
  satisfies_best_of_ordinary (c := p.adjusted) (onKnownPlatform_adjusted hbase) hcompiler ht hboring hd

/-- An experiment that neither the user nor the release sets is a tag of the adjusted context only as
one of the toolchain. -/
theorem hasTag_adjusted_iff (hbuild : t ∉ p.base.buildTags) (hrelease : t ∉ p.base.releaseTags)
    (ht : isExperimentTag t = true) :
    p.adjusted.hasTag t = true ↔ t ∈ p.adjusted.toolTags := by
  have hbuild' : t ∉ p.adjusted.buildTags := by
    have hmem := mem_best_buildTags_of_isInternal (c := p.adjusted)
      (isInternal_of_isExperimentTag (p := p) ht)
    exact fun h => hbuild (hmem.1 h)
  simp [Context.hasTag, hbuild', p.adjusts_adjusted.retags.releaseTags, hrelease]

/-- An experiment that only the toolchain can set holds in the adjusted context exactly if its first
occurrence asks for it. -/
theorem satisfies_adjusted_of_isExperimentTag (hbase : p.base.OnKnownPlatform)
    (hcompiler : isCompiler p.base.compiler = true) (hbuild : t ∉ p.base.buildTags)
    (hrelease : t ∉ p.base.releaseTags) (ht : isExperimentTag t = true)
    (hd : p.expr.lookup t = some d) : p.adjusted.satisfies t = d.isPositive := by
  have hreserved := not_mem_reservedNames_of_isExperimentTag ht
  have hne : t ≠ p.adjusted.compiler := by
    rintro rfl
    rw [p.adjusts_adjusted.retags.compiler] at hreserved
    exact hreserved (mem_reservedNames_iff.2 (Or.inr (Or.inr (Or.inl hcompiler))))
  rw [Context.satisfies_eq_hasTag (onKnownPlatform_adjusted hbase) hreserved hne, Bool.eq_iff_iff,
    hasTag_adjusted_iff hbuild hrelease ht]
  exact mem_best_toolTags (c := p.adjusted) ht hd

/-! ### The tag with an alias -/

/-- In the adjusted context `boringcrypto` holds as the old name of its experiment: the release knows
it, and the constraint asks for the experiment or leaves the one of the base context alone. -/
def HoldsByAlias (p : Problem) : Prop :=
  p.base.knowsAliases = true ∧
    (p.expr.FirstPositive boringcryptoExperiment ∨
      boringcryptoExperiment ∉ p.expr.atoms ∧ boringcryptoExperiment ∈ p.base.toolTags)

/-- An experiment is in the tags of the adjusted context if the constraint asks for it, or does not
mention it and the toolchain has set it. -/
theorem mem_adjusted_toolTags_iff (ht : isExperimentTag t = true) :
    t ∈ p.adjusted.toolTags ↔
      p.expr.FirstPositive t ∨ t ∉ p.expr.atoms ∧ t ∈ p.base.toolTags := by
  rw [adjusted_eq]
  by_cases hmention : t ∈ p.expr.atoms
  · obtain ⟨d, hd⟩ := Option.isSome_iff_exists.1 (Expr.isSome_lookup.2 hmention)
    rw [Expr.firstPositive_iff hd]
    simpa [hmention] using mem_setAll_polarities ht hd
  · have hlookup : p.expr.lookup t = none := by
      rw [← Option.not_isSome_iff_eq_none, Expr.isSome_lookup]
      exact hmention
    have hfirst : ¬ p.expr.FirstPositive t := Expr.not_firstPositive hmention
    simpa [hmention, hfirst] using mem_setAll_polarities_of_not (Or.inr hlookup)

/-- The tag `boringcrypto`, if it is one of the user, holds in the adjusted context if its first
occurrence asks for it or its experiment is set. -/
theorem satisfies_adjusted_boringcrypto_iff (hbase : p.base.OnKnownPlatform)
    (hcompiler : isCompiler p.base.compiler = true)
    (hbuild : boringcryptoExperiment ∉ p.base.buildTags)
    (hrelease : boringcryptoExperiment ∉ p.base.releaseTags)
    (ht : p.isInternal boringcryptoTag = false) (hd : p.expr.lookup boringcryptoTag = some d) :
    p.adjusted.satisfies boringcryptoTag = true ↔
      p.expr.FirstPositive boringcryptoTag ∨ p.HoldsByAlias := by
  have hretags := p.adjusts_adjusted.retags
  obtain ⟨⟨-, -, -, hexp, -⟩, -, htool, hreleaseTag⟩ := isInternal_eq_false_iff.1 ht
  have hcompiler' : isCompiler p.adjusted.compiler = true := by
    rw [hretags.compiler]
    exact hcompiler
  have htag : p.adjusted.hasTag boringcryptoTag = true ↔ p.expr.FirstPositive boringcryptoTag := by
    have hmem : boringcryptoTag ∈ p.adjusted.buildTags ↔ d.isPositive = true :=
      mem_best_buildTags (c := p.adjusted) ht hd
    rw [Expr.firstPositive_iff hd, ← hmem]
    simp [Context.hasTag, hretags.toolTags _ hexp, hretags.releaseTags, htool, hreleaseTag]
  have halias : p.adjusted.knowsAliases = p.base.knowsAliases := by
    rw [Context.knowsAliases, Context.knowsAliases, hretags.releaseTags]
  rw [Context.satisfies_boringcrypto_iff (onKnownPlatform_adjusted hbase) hcompiler', htag, halias,
    hasTag_adjusted_iff hbuild hrelease (by decide), mem_adjusted_toolTags_iff (by decide)]
  rfl

/-- **The adjusted context gives the tags that may be set the values that the constraint asks for.** A
mentioned experiment or tag of the user holds in it exactly if its first occurrence is positive; the
tag `boringcrypto` also holds if the experiment that it stands for is set. -/
theorem satisfies_adjusted_iff (hbase : p.base.OnKnownPlatform)
    (hcompiler : isCompiler p.base.compiler = true)
    (hbuild : ∀ t ∈ p.base.buildTags, isExperimentTag t = false)
    (hrelease : ∀ t ∈ p.base.releaseTags, isExperimentTag t = false)
    (ht : isExperimentTag t = true ∨ p.isInternal t = false) (hmention : t ∈ p.expr.atoms) :
    p.adjusted.satisfies t = true ↔
      p.expr.FirstPositive t ∨ t = boringcryptoTag ∧ p.HoldsByAlias := by
  obtain ⟨d, hd⟩ := Option.isSome_iff_exists.1 (Expr.isSome_lookup.2 hmention)
  have hnot {s : TagSet} {u : String} (hs : ∀ t ∈ s, isExperimentTag t = false)
      (hu : isExperimentTag u = true) : u ∉ s := fun hmem =>
    Bool.false_ne_true ((hs u hmem).symm.trans hu)
  by_cases hboring : t = boringcryptoTag
  · subst hboring
    have hinternal : p.isInternal boringcryptoTag = false := ht.resolve_left (by decide)
    rw [satisfies_adjusted_boringcrypto_iff hbase hcompiler (hnot hbuild (by decide))
      (hnot hrelease (by decide)) hinternal hd]
    simp
  · have hvalue : p.adjusted.satisfies t = d.isPositive := by
      rcases ht with hexp | hinternal
      · exact satisfies_adjusted_of_isExperimentTag hbase hcompiler (hnot hbuild hexp)
          (hnot hrelease hexp) hexp hd
      · exact satisfies_adjusted_of_ordinary hbase hcompiler hinternal hboring hd
    rw [hvalue, ← Expr.firstPositive_iff hd]
    simp [hboring]

/-- The tag `netgo` stands under two negations, so the adjusted context sets it. -/
theorem satisfies_adjusted_iff_netgo :
    let x : Expr := .and (.tag "goexperiment.arenas")
      (.not (.and (.tag "race") (.not (.and (.tag "netgo") (.tag "cgo")))))
    let p : Problem := ⟨.builtin, x, {}, .ofPlatform "linux" "amd64"⟩
    p.adjusted.satisfies "netgo" = true ↔
      x.FirstPositive "netgo" ∨ "netgo" = boringcryptoTag ∧ p.HoldsByAlias := by
  intro x p
  exact satisfies_adjusted_iff ⟨by decide, by decide⟩ (by decide) (by decide) (by decide +kernel)
    (.inr (by decide +kernel)) (by decide)

/-- The constraint asks for the experiment and against its old name, which holds once the experiment
is set. -/
theorem satisfies_adjusted_boringcrypto :
    let x : Expr := .and (.tag boringcryptoExperiment) (.not (.tag boringcryptoTag))
    let p : Problem := ⟨.builtin, x, {}, .ofPlatform "linux" "amd64"⟩
    (p.base.OnKnownPlatform ∧ isCompiler p.base.compiler = true ∧
      (∀ t ∈ p.base.buildTags, isExperimentTag t = false) ∧
      (∀ t ∈ p.base.releaseTags, isExperimentTag t = false) ∧
      p.isInternal boringcryptoTag = false ∧ boringcryptoTag ∈ x.atoms) ∧
    ¬ (p.adjusted.satisfies boringcryptoTag = true ↔ x.FirstPositive boringcryptoTag) := by
  intro x p
  have hholds : p.adjusted.satisfies boringcryptoTag = true := by decide +kernel
  have hnegative : ¬ x.FirstPositive boringcryptoTag := by decide
  exact ⟨⟨⟨by decide, by decide⟩, by decide, by decide, by decide +kernel, by decide +kernel,
    by decide⟩, fun h => hnegative (h.1 hholds)⟩

end Problem

end GoBuild
