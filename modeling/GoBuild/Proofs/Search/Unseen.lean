import GoBuild.Proofs.Search.Gates
import GoBuild.Proofs.Search.Unmentioned

/-!
# Changes that the search does not see

A search from two starts that differ only in what the constraint does not mention goes the same way.
Such a difference is a change of cgo and of the tags of the user (`Change`) that no mentioned tag can
tell (`Change.Unseen`). Every step of the search finds the changed context if the base context is
changed (`Change.Unseen.run_changed`), and so does the run, step by step
(`Change.Unseen.runAll_changed`). Setting a tag is such a change, and so is disabling cgo
(`Matcher.find_of_not_mentions`).
-/

namespace GoBuild

/-! ### Changes of a context -/

/-- A change of cgo and of the tags of the user, which never enables cgo where it is disabled. -/
structure Change where
  cgo : Bool → Bool
  cgo_false : cgo false = false
  tags : TagSet → TagSet

namespace Change

variable {f : Change} {x : Expr} {c : Context} {t : String}

/-- The context with the change made to it. -/
def apply (f : Change) (c : Context) : Context :=
  { c with cgo := f.cgo c.cgo, buildTags := f.tags c.buildTags }

/-- No tag that the expression mentions can tell the change: of the tags of the user those that are
mentioned stay, cgo stays if it is mentioned, and to set a mentioned tag before the change or after
it is the same. -/
structure Unseen (f : Change) (x : Expr) : Prop where
  cgo_eq : cgoTag ∈ x.atoms → ∀ on, f.cgo on = on
  mem_tags : ∀ t, t ∈ x.atoms ∨ t = boringcryptoExperiment → ∀ s, t ∈ f.tags s ↔ t ∈ s
  tags_set : ∀ t ∈ x.atoms, ∀ s on, f.tags (s.set t on) = (f.tags s).set t on

theorem cgo_and (f : Change) (a b : Bool) : f.cgo (a && b) = (f.cgo a && b) := by
  cases b with
  | true => simp
  | false => simp [f.cgo_false]

namespace Unseen

theorem hasTag_apply (h : f.Unseen x) (ht : t ∈ x.atoms ∨ t = boringcryptoExperiment) :
    (f.apply c).hasTag t = c.hasTag t := by
  rw [Bool.eq_iff_iff]
  simp [Context.hasTag, apply, h.mem_tags t ht]

theorem satisfies_apply (h : f.Unseen x) (ht : t ∈ x.atoms) :
    (f.apply c).satisfies t = c.satisfies t := by
  have hcgo : ((f.apply c).cgo && t = cgoTag) = (c.cgo && t = cgoTag) := by
    by_cases heq : t = cgoTag
    · subst heq
      simp [apply, h.cgo_eq ht]
    · simp [heq]
  have htag : (f.apply c).hasTag t = c.hasTag t := h.hasTag_apply (Or.inl ht)
  have hexperiment : (f.apply c).hasTag boringcryptoExperiment = c.hasTag boringcryptoExperiment :=
    h.hasTag_apply (Or.inr rfl)
  unfold Context.satisfies
  rw [hcgo, htag, hexperiment]
  rfl

/-- The expression has the same value after the change. -/
theorem holds_apply (h : f.Unseen x) (c : Context) : (f.apply c).holds x = c.holds x :=
  Expr.eval_congr fun _ ht => h.satisfies_apply ht

theorem tags_setAll (h : f.Unseen x) {s : TagSet} {asked : List (String × Polarity)}
    (hasked : ∀ o ∈ asked, o.1 ∈ x.atoms) : f.tags (s.setAll asked) = (f.tags s).setAll asked := by
  induction asked generalizing s with
  | nil => rfl
  | cons o asked ih =>
    obtain ⟨ho, hrest⟩ := List.forall_mem_cons.1 hasked
    show f.tags ((s.set o.1 o.2.isPositive).setAll asked) = _
    rw [ih hrest, h.tags_set o.1 ho]
    rfl

/-- Sets of tags that differ in mentioned tags only do not become equal. -/
theorem eq_of_tags_eq (h : f.Unseen x) {s u : TagSet}
    (hsame : ∀ t, t ∉ x.atoms → (t ∈ u ↔ t ∈ s)) (heq : f.tags u = f.tags s) : u = s := by
  refine TagSet.ext fun t => ?_
  by_cases ht : t ∈ x.atoms
  · rw [← h.mem_tags t (Or.inl ht) u, heq, h.mem_tags t (Or.inl ht) s]
  · exact hsame t ht

end Unseen

end Change

/-! ### The problem with a changed base context -/

namespace Problem

variable {p : Problem}

/-- The problem with the change made to its base context. -/
def changed (p : Problem) (f : Change) : Problem := { p with base := f.apply p.base }

theorem ChangesAsAsked.mem_iff_of_not_mem_atoms {choose : String → Bool} {s u : TagSet} {t : String}
    (h : p.ChangesAsAsked choose s u) (ht : t ∉ p.expr.atoms) : t ∈ u ↔ t ∈ s := by
  refine Decidable.of_not_not fun hchanged => ?_
  obtain ⟨-, d, hd, -⟩ := h t hchanged
  exact ht (Expr.isSome_lookup.1 (by rw [hd]; rfl))

end Problem

namespace Change.Unseen

variable {p : Problem} {f : Change}

theorem accept?_changed (h : f.Unseen p.expr) (c : Context) :
    (p.changed f).accept? (f.apply c) = (p.accept? c).map f.apply := by
  have hholds : (p.changed f).holds (f.apply c) = p.holds c := h.holds_apply c
  unfold Problem.accept?
  rw [hholds, Option.map_if]

/-! ### Tags -/

theorem withExperiments_changed (f : Change) (p : Problem) :
    (p.changed f).withExperiments (p.changed f).base = f.apply (p.withExperiments p.base) := by
  rw [Problem.withExperiments_eq, Problem.withExperiments_eq]
  rfl

theorem setBuildTag_changed (h : f.Unseen p.expr) {t : String} {d : Polarity}
    (hmem : (t, d) ∈ p.ordinaryTags) :
    (p.changed f).base.setBuildTag t d.isPositive =
      f.apply (p.base.setBuildTag t d.isPositive) := by
  have ht : t ∈ p.expr.atoms := Problem.mem_atoms_of_mem_polarities hmem
  have htags := h.tags_set t ht p.base.buildTags d.isPositive
  unfold Context.setBuildTag apply
  rw [htags]
  rfl

theorem adjusted_changed (h : f.Unseen p.expr) : (p.changed f).adjusted = f.apply p.adjusted := by
  have htags : f.tags (p.base.buildTags.setAll p.ordinaryTags) =
      (f.tags p.base.buildTags).setAll p.ordinaryTags :=
    h.tags_setAll fun o ho => Problem.mem_atoms_of_mem_polarities ho
  rw [Problem.adjusted_eq, Problem.adjusted_eq]
  unfold apply
  rw [htags]
  rfl

theorem findSome?_eq_map {α : Type} {xs : List α} {g k : α → Option Context}
    (h : ∀ a ∈ xs, g a = (k a).map f.apply) :
    xs.findSome? g = (xs.findSome? k).map f.apply := by
  induction xs with
  | nil => rfl
  | cons a xs ih =>
    obtain ⟨ha, hrest⟩ := List.forall_mem_cons.1 h
    rw [List.findSome?_cons, List.findSome?_cons, ha]
    cases k a with
    | none => exact ih hrest
    | some c => rfl

/-- A context with other tags is the base context after the change only if it was so before. -/
theorem apply_eq_base_iff (h : f.Unseen p.expr) {choose : String → Bool} {toolTags buildTags : TagSet}
    (hbuild : p.ChangesAsAsked choose p.base.buildTags buildTags) :
    f.apply { p.base with toolTags, buildTags } = (p.changed f).base ↔
      { p.base with toolTags, buildTags } = p.base := by
  constructor
  · intro heq
    have htool : toolTags = p.base.toolTags :=
      show (f.apply { p.base with toolTags, buildTags }).toolTags = (p.changed f).base.toolTags by
        rw [heq]
    have hchanged : f.tags buildTags = f.tags p.base.buildTags :=
      show (f.apply { p.base with toolTags, buildTags }).buildTags = (p.changed f).base.buildTags by
        rw [heq]
    rw [htool, h.eq_of_tags_eq (fun _ ht => hbuild.mem_iff_of_not_mem_atoms ht) hchanged]
  · intro heq
    rw [heq]
    rfl

theorem acceptChanged?_changed (h : f.Unseen p.expr) {choose : String → Bool}
    {toolTags buildTags : TagSet}
    (hbuild : p.ChangesAsAsked choose p.base.buildTags buildTags) :
    (p.changed f).acceptChanged? (f.apply { p.base with toolTags, buildTags }) =
      (p.acceptChanged? { p.base with toolTags, buildTags }).map f.apply := by
  have heq : f.apply { p.base with toolTags, buildTags } = (p.changed f).base ↔
      { p.base with toolTags, buildTags } = p.base := h.apply_eq_base_iff hbuild
  unfold Problem.acceptChanged?
  -- What equals the base context is passed over, so the change must not hide a difference.
  by_cases hsame : { p.base with toolTags, buildTags } = p.base
  · rw [if_pos hsame, if_pos (heq.2 hsame)]
    rfl
  · rw [if_neg hsame, if_neg fun hnew => hsame (heq.1 hnew)]
    exact h.accept?_changed _

theorem tryExperiments_changed (h : f.Unseen p.expr) :
    (p.changed f).tryExperiments = p.tryExperiments.map f.apply := by
  unfold Problem.tryExperiments
  rw [withExperiments_changed, Problem.withExperiments_eq]
  exact h.acceptChanged?_changed (p.changesAsAsked_refl (fun _ => true) p.base.buildTags)

theorem trySingleTag_changed (h : f.Unseen p.expr) :
    (p.changed f).trySingleTag = p.trySingleTag.map f.apply := by
  have htags : (p.changed f).ordinaryTags = p.ordinaryTags := rfl
  unfold Problem.trySingleTag
  rw [htags]
  refine findSome?_eq_map ?_
  rintro ⟨t, d⟩ hmem
  dsimp only
  rw [h.setBuildTag_changed hmem]
  exact h.acceptChanged?_changed (Problem.changesAsAsked_set hmem)

theorem seed?_changed (h : f.Unseen p.expr) (seed : Seed) :
    (p.changed f).seed? seed = (p.seed? seed).map f.apply := by
  cases seed with
  | base => rfl
  | adjusted =>
    have heq : f.apply p.adjusted = (p.changed f).base ↔ p.adjusted = p.base := by
      rw [Problem.adjusted_eq]
      exact h.apply_eq_base_iff (p.changesAsAsked_setAll _ p.base.buildTags)
    unfold Problem.seed?
    rw [h.adjusted_changed]
    by_cases hsame : p.adjusted = p.base
    · rw [if_pos hsame, if_pos (heq.2 hsame)]
      rfl
    · rw [if_neg hsame, if_neg fun hnew => hsame (heq.1 hnew)]
      rfl

/-! ### Gates -/

theorem sameAtGates (h : f.Unseen p.expr) : p.SameAtGates (f.apply p.base) :=
  ⟨rfl, fun _ ht _ => h.hasTag_apply (Or.inl ht), fun _ ht _ => h.satisfies_apply ht⟩

theorem passRelease_changed (h : f.Unseen p.expr) : (p.changed f).passRelease = p.passRelease :=
  Problem.passRelease_congr h.sameAtGates

theorem passCompiler_changed (h : f.Unseen p.expr) :
    (p.changed f).passCompiler = p.passCompiler :=
  Problem.passCompiler_congr h.sameAtGates

/-! ### Cgo and platforms -/

theorem toggle_apply (h : f.Unseen p.expr) (hcgo : p.mentionsCgo = true) (c : Context) :
    f.apply { c with cgo := !c.cgo } = { f.apply c with cgo := !(f.apply c).cgo } := by
  have hid : ∀ on, f.cgo on = on := h.cgo_eq (Expr.isSome_lookup.1 hcgo)
  simp [apply, hid]

theorem tryCgo_changed (h : f.Unseen p.expr) (c : Context) :
    (p.changed f).tryCgo (f.apply c) = (p.tryCgo c).map f.apply := by
  unfold Problem.tryCgo
  rw [apply_ite (Option.map f.apply), ← h.accept?_changed, Option.map_none]
  by_cases hcgo : p.mentionsCgo = true
  · have hsame : (f.apply c).cgo = c.cgo := h.cgo_eq (Expr.isSome_lookup.1 hcgo) c.cgo
    rw [h.toggle_apply hcgo, hsame]
    rfl
  · have hno : (p.changed f).mentionsCgo = p.mentionsCgo := rfl
    rw [Bool.not_eq_true] at hcgo
    rw [hno, hcgo]
    rfl

theorem retarget_apply (f : Change) (p : Problem) (c : Context) (os arch : String) :
    (p.changed f).retarget (f.apply c) os arch = f.apply (p.retarget c os arch) := by
  unfold Problem.retarget apply
  rw [f.cgo_and]
  rfl

theorem tryPlatform_changed (h : f.Unseen p.expr) (c : Context) (os arch : String) :
    (p.changed f).tryPlatform (f.apply c) os arch = (p.tryPlatform c os arch).map f.apply := by
  have hholds : (p.changed f).holds (f.apply (p.retarget c os arch)) =
      p.holds (p.retarget c os arch) := h.holds_apply _
  unfold Problem.tryPlatform
  dsimp only
  rw [retarget_apply, hholds, apply_ite (Option.map f.apply), apply_ite (Option.map f.apply),
    ← h.accept?_changed]
  by_cases hcgo : p.mentionsCgo = true
  · rw [h.toggle_apply hcgo]
    rfl
  · have hno : (p.changed f).mentionsCgo = p.mentionsCgo := rfl
    rw [Bool.not_eq_true] at hcgo
    rw [hno, hcgo]
    rfl

theorem walkPlatforms_changed (h : f.Unseen p.expr) (c : Context) :
    (p.changed f).walkPlatforms (f.apply c) = (p.walkPlatforms c).map f.apply := by
  have htable : (p.changed f).walkTable (f.apply c) = (p.walkTable c).map f.apply :=
    findSome?_eq_map fun row _ => h.tryPlatform_changed c row.os row.arch
  have hoses : (p.changed f).walkOses (f.apply c) = (p.walkOses c).map f.apply :=
    findSome?_eq_map fun os _ => findSome?_eq_map fun arch _ => h.tryPlatform_changed c os arch
  have harches : (p.changed f).walkArches (f.apply c) = (p.walkArches c).map f.apply :=
    findSome?_eq_map fun arch _ => findSome?_eq_map fun os _ => h.tryPlatform_changed c os arch
  have hos : (p.changed f).mentionsOs = p.mentionsOs := rfl
  have harch : (p.changed f).mentionsArch = p.mentionsArch := rfl
  unfold Problem.walkPlatforms
  rw [hos, harch]
  split
  · exact htable
  · exact hoses
  · exact harches
  · rfl

/-! ### Steps and runs -/

/-- A step that starts from the changed base context finds the changed context. -/
theorem run_changed (h : f.Unseen p.expr) (step : Step) :
    (p.changed f).run step = (p.run step).map (Option.map f.apply) := by
  cases step with
  | direct => exact congrArg Except.ok (h.accept?_changed p.base)
  | experiments => exact congrArg Except.ok h.tryExperiments_changed
  | singleTag => exact congrArg Except.ok h.trySingleTag_changed
  | allTags =>
    refine congrArg Except.ok ?_
    rw [h.adjusted_changed]
    exact h.accept?_changed p.adjusted
  | releaseGate =>
    rw [Problem.run, Problem.run, h.passRelease_changed]
    cases p.passRelease <;> rfl
  | compilerGate =>
    rw [Problem.run, Problem.run, h.passCompiler_changed]
    cases p.passCompiler <;> rfl
  | cgo seed =>
    refine congrArg Except.ok ?_
    rw [h.seed?_changed]
    cases p.seed? seed with
    | none => rfl
    | some s => exact h.tryCgo_changed s
  | platform seed =>
    refine congrArg Except.ok ?_
    rw [h.seed?_changed]
    cases p.seed? seed with
    | none => rfl
    | some s => exact h.walkPlatforms_changed s

/-- A run that starts from the changed base context fails alike, or finds the changed context. -/
theorem runAll_changed (h : f.Unseen p.expr) (steps : List Step) :
    (p.changed f).runAll steps = (p.runAll steps).map f.apply := by
  induction steps with
  | nil => rfl
  | cons step rest ih =>
    rw [Problem.runAll, Problem.runAll, h.run_changed]
    cases p.run step with
    | error fault => rfl
    | ok found =>
      cases found with
      | some c => rfl
      | none => exact ih

end Change.Unseen

/-! ### Finding a context -/

/-- The change that sets a tag of the user. -/
def Change.addTag (t : String) : Change := ⟨id, rfl, (·.insert t)⟩

/-- The change that disables cgo. -/
def Change.disableCgo : Change := ⟨fun _ => false, rfl, id⟩

/-- The context with cgo disabled. -/
def Context.withoutCgo (c : Context) : Context := { c with cgo := false }

theorem Change.unseen_addTag {t : String} {x : Expr} (ht : t ∉ x.atoms)
    (hexperiment : t ≠ boringcryptoExperiment) : (addTag t).Unseen x := by
  have hne : ∀ a, a ∈ x.atoms ∨ a = boringcryptoExperiment → a ≠ t := by
    rintro a (ha | rfl) rfl
    · exact ht ha
    · exact hexperiment rfl
  refine ⟨fun _ _ => rfl, fun a ha s => ?_, fun a ha s on => TagSet.ext fun b => ?_⟩
  · simp [addTag, hne a ha]
  · simp only [addTag, TagSet.mem_insert, TagSet.mem_set]
    by_cases hb : b = a
    · subst hb
      simp [hne b (Or.inl ha)]
    · simp [hb]

theorem Change.unseen_disableCgo {x : Expr} (h : cgoTag ∉ x.atoms) : disableCgo.Unseen x :=
  ⟨fun hmem => absurd hmem h, fun _ _ _ => Iff.rfl, fun _ _ _ _ => rfl⟩

namespace Matcher

variable {m : Matcher} {f : Change} {start : Context} {path : String} {content : List UInt8}

/-- The constraint of the file mentions the tag. -/
def Mentions (content : List UInt8) (t : String) : Prop :=
  ∃ x, constraintOf content = .ok (some x) ∧ t ∈ x.atoms

theorem baseFor_apply (m : Matcher) (f : Change) (start : Context) (path : String) :
    m.baseFor (f.apply start) path = f.apply (m.baseFor start path) := by
  have hfilled : m.filled (f.apply start) = f.apply (m.filled start) := by
    unfold filled
    split <;> rfl
  rw [baseFor, hfilled, baseFor]
  unfold Source.Mandate.place Source.Mandate.moveTo Change.apply
  rw [f.cgo_and]

/-- A search from a start with a change that the constraint does not see fails alike, or finds the
context with that change. -/
theorem find_apply (h : ∀ x, constraintOf content = .ok (some x) → f.Unseen x) :
    m.find (f.apply start) path content = (m.find start path content).map f.apply := by
  unfold find
  cases hcon : constraintOf content with
  | error e => rfl
  | ok x? =>
    cases x? with
    | none => exact congrArg Except.ok (m.baseFor_apply f start path)
    | some x =>
      have hproblem : m.problem (f.apply start) path x = (m.problem start path x).changed f := by
        unfold Problem.changed problem
        rw [m.baseFor_apply]
      dsimp only
      rw [hproblem, (h x hcon).runAll_changed]
      cases (m.problem start path x).runAll _ <;> rfl

/-- What the constraint does not mention has no influence on the search and is not lost. A tag that is
not mentioned, set in the start, is set in the context found and changes nothing else; the experiment
for which `boringcrypto` stands is left aside. If cgo is not mentioned, then with and without cgo in
the start the search fails alike or finds contexts that differ in cgo at most. -/
theorem find_of_not_mentions (m : Matcher) (start : Context) (path : String)
    (content : List UInt8) :
    (∀ t, ¬ Mentions content t → t ≠ boringcryptoExperiment →
      m.find (start.setBuildTag t true) path content =
        (m.find start path content).map (·.setBuildTag t true)) ∧
    (¬ Mentions content cgoTag →
      (m.find { start with cgo := true } path content).map Context.withoutCgo =
        (m.find { start with cgo := false } path content).map Context.withoutCgo) := by
  constructor
  · intro t ht hexperiment
    have hrun : m.find ((Change.addTag t).apply start) path content =
        (m.find start path content).map (Change.addTag t).apply :=
      find_apply fun x hx => Change.unseen_addTag (fun hmem => ht ⟨x, hx, hmem⟩) hexperiment
    exact hrun
  · intro hcgo
    -- Enabling cgo is no such change, as a later move may disable it again; disabling it is one.
    have hdisable : ∀ on, (m.find { start with cgo := on } path content).map Context.withoutCgo =
        m.find start.withoutCgo path content := by
      intro on
      have hrun : m.find (Change.disableCgo.apply { start with cgo := on }) path content =
          (m.find { start with cgo := on } path content).map Change.disableCgo.apply :=
        find_apply fun x hx => Change.unseen_disableCgo fun hmem => hcgo ⟨x, hx, hmem⟩
      exact hrun.symm
    rw [hdisable, hdisable]

/-- The tag `race` is kept by a search that goes to another platform and sets another tag, and cgo in
the start, which the platform found supports, does not change where the search goes. -/
theorem find_of_not_mentions_windows :
    let m : Matcher := ⟨.builtin, {}⟩
    let start : Context := { os := "linux", arch := "amd64", buildTags := .ofList ["extra"] }
    let content := "//go:build windows && purego\n\npackage a\n".toUTF8.toList
    let c : Context := { os := "windows", arch := "amd64", compiler := "gc",
                         buildTags := .ofList ["extra", "purego"] }
    (m.find start "a.go" content = .ok c ∧ ¬ Mentions content "race" ∧ ¬ Mentions content cgoTag) ∧
      m.find (start.setBuildTag "race" true) "a.go" content = .ok (c.setBuildTag "race" true) ∧
      (m.find { start with cgo := true } "a.go" content).map Context.withoutCgo = .ok c := by
  intro m start content c
  have hfind : m.find start "a.go" content = .ok c := by decide +kernel
  have hx : constraintOf content = .ok (some ((Expr.tag "windows").and (.tag "purego"))) := by
    decide +kernel
  have hmentions : ∀ t, Mentions content t → t = "windows" ∨ t = "purego" := by
    rintro t ⟨x, hcon, ht⟩
    rw [hx] at hcon
    cases hcon
    simpa using ht
  have hrace : ¬ Mentions content "race" := fun h => absurd (hmentions "race" h) (by decide)
  have hcgo : ¬ Mentions content cgoTag := fun h => absurd (hmentions cgoTag h) (by decide)
  obtain ⟨hadd, hdisable⟩ := find_of_not_mentions m start "a.go" content
  have hrun : m.find (start.setBuildTag "race" true) "a.go" content =
      (m.find start "a.go" content).map (·.setBuildTag "race" true) := hadd "race" hrace (by decide)
  have hoff : m.find { start with cgo := false } "a.go" content = .ok c := hfind
  refine ⟨⟨hfind, hrace, hcgo⟩, ?_, ?_⟩
  · rw [hrun, hfind]
    rfl
  · rw [hdisable hcgo, hoff]
    rfl

end Matcher

end GoBuild
