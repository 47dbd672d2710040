import GoBuild.Proofs.Context.Tags
import GoBuild.Search.Problem

/-!
# The adjusted context

What setting the tags that a constraint mentions does to a context: a mentioned experiment is in the
tags of the toolchain, and a mentioned tag of the user in those of the user, exactly if its first
occurrence asks for it; all else stays.
-/

namespace GoBuild

/-! ### Setting several tags -/

/-- The set with each tag of the list as its direction asks for. -/
def TagSet.setAll (s : TagSet) (asked : List (String × Polarity)) : TagSet :=
  asked.foldl (fun s o => s.set o.1 o.2.isPositive) s

theorem TagSet.mem_setAll_of_forall_ne {s : TagSet} {t : String} {asked : List (String × Polarity)}
    (h : ∀ o ∈ asked, o.1 ≠ t) : t ∈ s.setAll asked ↔ t ∈ s := by
  induction asked generalizing s with
  | nil => rfl
  | cons o asked ih =>
    have ho : o.1 ≠ t := h o List.mem_cons_self
    exact (ih fun q hq => h q (List.mem_cons_of_mem _ hq)).trans (by simp [mem_set, ho.symm])

theorem TagSet.mem_setAll_of_mem {s : TagSet} {t : String} {d : Polarity}
    {asked : List (String × Polarity)} (hmem : (t, d) ∈ asked)
    (hone : ∀ o ∈ asked, o.1 = t → o.2 = d) : t ∈ s.setAll asked ↔ d.isPositive = true := by
  induction asked generalizing s with
  | nil => cases hmem
  | cons o asked ih =>
    by_cases hrest : (t, d) ∈ asked
    · exact ih hrest fun q hq => hone q (List.mem_cons_of_mem _ hq)
    · -- The entry at the front is the only one for the tag.
      have ho : o = (t, d) := ((List.mem_cons.1 hmem).resolve_right hrest).symm
      have hne : ∀ q ∈ asked, q.1 ≠ t := by
        intro q hq hqt
        have hqd : q.2 = d := hone q (List.mem_cons_of_mem _ hq) hqt
        exact hrest (by rw [← hqt, ← hqd]; exact hq)
      exact (mem_setAll_of_forall_ne hne).trans (by simp [mem_set, ho])

namespace Problem

variable {p : Problem} {c : Context}

theorem mem_polarities {choose : String → Bool} {t : String} {d : Polarity} :
    (t, d) ∈ p.polarities choose ↔ choose t = true ∧ p.expr.lookup t = some d := by
  simp only [polarities, List.mem_filterMap, List.mem_filter, Option.map_eq_some_iff, Prod.mk.injEq]
  constructor
  · rintro ⟨t', ⟨-, hchoose⟩, d', hlookup, rfl, rfl⟩
    exact ⟨hchoose, hlookup⟩
  · rintro ⟨hchoose, hlookup⟩
    have hmem : t ∈ p.expr.atoms := Expr.isSome_lookup.1 (by rw [hlookup]; rfl)
    exact ⟨t, ⟨TagSet.mem_iff.1 (Expr.mem_tags.2 hmem), hchoose⟩, d, hlookup, rfl, rfl⟩

theorem mem_atoms_of_mem_polarities {choose : String → Bool} {o : String × Polarity}
    (h : o ∈ p.polarities choose) : o.1 ∈ p.expr.atoms :=
  Expr.isSome_lookup.1 (by rw [(mem_polarities.1 h).2]; rfl)

theorem withExperiments_eq : p.withExperiments c =
    { c with toolTags := c.toolTags.setAll (p.polarities isExperimentTag) } := by
  unfold withExperiments
  induction p.polarities isExperimentTag generalizing c with
  | nil => rfl
  | cons o asked ih => exact ih

theorem withOrdinaryTags_eq : p.withOrdinaryTags c =
    { c with buildTags := c.buildTags.setAll p.ordinaryTags } := by
  unfold withOrdinaryTags
  induction p.ordinaryTags generalizing c with
  | nil => rfl
  | cons o asked ih => exact ih

theorem adjusted_eq :
    p.adjusted = { p.base with
      toolTags := p.base.toolTags.setAll (p.polarities isExperimentTag)
      buildTags := p.base.buildTags.setAll p.ordinaryTags } := by
  rw [adjusted, withOrdinaryTags_eq, withExperiments_eq]

/-! ### Tags of experiments and of the user -/

theorem isInternal_of_isExperimentTag {t : String} (h : isExperimentTag t = true) :
    p.isInternal t = true := by
  simp [isInternal, h]

theorem isInternal_eq_false_iff {t : String} : p.isInternal t = false ↔
    (isCompiler t = false ∧ isKnownOs t = false ∧ isKnownArch t = false ∧ isExperimentTag t = false ∧
      isReleaseTag t = false) ∧ (t ≠ cgoTag ∧ t ≠ unixTag) ∧
      t ∉ p.base.toolTags ∧ t ∉ p.base.releaseTags := by
  simp [isInternal, TagSet.contains, and_assoc]

/-- A mentioned tag of the kind chosen is set exactly if its first occurrence asks for it. -/
theorem mem_setAll_polarities {s : TagSet} {choose : String → Bool} {t : String} {d : Polarity}
    (ht : choose t = true) (hd : p.expr.lookup t = some d) :
    t ∈ s.setAll (p.polarities choose) ↔ d.isPositive = true := by
  refine TagSet.mem_setAll_of_mem (mem_polarities.2 ⟨ht, hd⟩) fun o ho hot => ?_
  have hlookup : p.expr.lookup o.1 = some o.2 := (mem_polarities.1 ho).2
  rw [hot, hd] at hlookup
  exact (Option.some.inj hlookup).symm

/-- Tags of another kind, and tags that are not mentioned, stay. -/
theorem mem_setAll_polarities_of_not {s : TagSet} {choose : String → Bool} {t : String}
    (h : choose t = false ∨ p.expr.lookup t = none) :
    t ∈ s.setAll (p.polarities choose) ↔ t ∈ s := by
  refine TagSet.mem_setAll_of_forall_ne ?_
  rintro ⟨t', d⟩ ho rfl
  obtain ⟨hchoose, hlookup⟩ := mem_polarities.1 ho
  rcases h with h | h
  · rw [h] at hchoose
    cases hchoose
  · rw [h] at hlookup
    cases hlookup

/-! ### Contexts with other tags -/

/-- The set `u` differs from `s` only in mentioned tags of the kind chosen, each of them as its first
occurrence asks for. -/
def ChangesAsAsked (p : Problem) (choose : String → Bool) (s u : TagSet) : Prop :=
  ∀ t, ¬ (t ∈ u ↔ t ∈ s) →
    choose t = true ∧ ∃ d, p.expr.lookup t = some d ∧ (t ∈ u ↔ d.isPositive = true)

theorem changesAsAsked_refl (p : Problem) (choose : String → Bool) (s : TagSet) :
    p.ChangesAsAsked choose s s :=
  fun _ hchanged => absurd Iff.rfl hchanged

theorem ChangesAsAsked.mem_iff {choose : String → Bool} {s u : TagSet} {t : String}
    (h : p.ChangesAsAsked choose s u) (ht : choose t = false) : t ∈ u ↔ t ∈ s := by
  refine Decidable.of_not_not fun hchanged => ?_
  rw [(h t hchanged).1] at ht
  cases ht

theorem changesAsAsked_setAll (p : Problem) (choose : String → Bool) (s : TagSet) :
    p.ChangesAsAsked choose s (s.setAll (p.polarities choose)) := by
  intro t hchanged
  have hchoose : choose t = true := by
    rw [← Bool.not_eq_false]
    exact fun h => hchanged (mem_setAll_polarities_of_not (Or.inl h))
  cases hd : p.expr.lookup t with
  | none => exact absurd (mem_setAll_polarities_of_not (Or.inr hd)) hchanged
  | some d => exact ⟨hchoose, d, rfl, mem_setAll_polarities hchoose hd⟩

theorem changesAsAsked_set {choose : String → Bool} {s : TagSet} {t : String} {d : Polarity}
    (h : (t, d) ∈ p.polarities choose) : p.ChangesAsAsked choose s (s.set t d.isPositive) := by
  obtain ⟨hchoose, hd⟩ := mem_polarities.1 h
  intro t' hchanged
  by_cases ht : t' = t
  · subst ht
    exact ⟨hchoose, d, hd, by simp [TagSet.mem_set]⟩
  · exact absurd (by simp [TagSet.mem_set, ht]) hchanged

/-- The context differs from the base context in experiments and in tags of the user only, each of
them as its first occurrence asks for; platform and cgo are left aside. -/
structure Adjusts (p : Problem) (c : Context) : Prop where
  compiler : c.compiler = p.base.compiler
  releaseTags : c.releaseTags = p.base.releaseTags
  toolTags : p.ChangesAsAsked isExperimentTag p.base.toolTags c.toolTags
  buildTags : p.ChangesAsAsked (fun t => !p.isInternal t) p.base.buildTags c.buildTags

theorem adjusts_base (p : Problem) : p.Adjusts p.base :=
  ⟨rfl, rfl, p.changesAsAsked_refl _ _, p.changesAsAsked_refl _ _⟩

theorem adjusts_withExperiments (p : Problem) : p.Adjusts (p.withExperiments p.base) := by
  rw [withExperiments_eq]
  exact ⟨rfl, rfl, p.changesAsAsked_setAll _ _, p.changesAsAsked_refl _ _⟩

theorem adjusts_setBuildTag {t : String} {d : Polarity} (h : (t, d) ∈ p.ordinaryTags) :
    p.Adjusts (p.base.setBuildTag t d.isPositive) :=
  ⟨rfl, rfl, p.changesAsAsked_refl _ _, changesAsAsked_set h⟩

theorem adjusts_adjusted (p : Problem) : p.Adjusts p.adjusted := by
  rw [adjusted_eq]
  exact ⟨rfl, rfl, p.changesAsAsked_setAll _ _, p.changesAsAsked_setAll _ _⟩

/-- Of the tags of the toolchain the context has those of the base context, experiments apart, and of
the tags of the user those that mean something to the toolchain. -/
structure Retags (p : Problem) (c : Context) : Prop where
  compiler : c.compiler = p.base.compiler
  releaseTags : c.releaseTags = p.base.releaseTags
  toolTags : ∀ t, isExperimentTag t = false → (t ∈ c.toolTags ↔ t ∈ p.base.toolTags)
  buildTags : ∀ t, p.isInternal t = true → isExperimentTag t = false →
    (t ∈ c.buildTags ↔ t ∈ p.base.buildTags)

theorem Adjusts.retags (h : p.Adjusts c) : p.Retags c :=
  ⟨h.compiler, h.releaseTags, fun _ hexp => h.toolTags.mem_iff hexp,
    fun _ hint _ => h.buildTags.mem_iff (by rw [hint]; rfl)⟩

theorem Retags.hasTag_eq {t : String} (h : p.Retags c) (ht : p.isInternal t = true)
    (hexp : isExperimentTag t = false) : c.hasTag t = p.base.hasTag t := by
  have hbuild := h.buildTags t ht hexp
  have htool := h.toolTags t hexp
  rw [Bool.eq_iff_iff]
  simp only [Context.hasTag, h.releaseTags, Bool.or_eq_true, TagSet.contains_iff, hbuild, htool]

end Problem

end GoBuild
