import GoBuild.Proofs.Text.Lines
import GoBuild.Report

/-!
# The line of a report

The line of a report on a matched file shows the settings of its build as words, and leaves out those that
a plain build does not need. Between names without spaces and commas the words can be told apart
(`Report.settings_injective`), and so two such lines for a path are the same exactly if they are about the
same build (`Report.line_eq_iff`): only the tags of the release and those tags of the toolchain that are no
experiments are not shown.
-/

namespace GoBuild

/-- The two contexts build alike as far as a user can set them: platform, cgo, compiler, tags and
experiments. -/
structure Context.SameBuild (c d : Context) : Prop where
  os : c.os = d.os
  arch : c.arch = d.arch
  cgo : c.cgo = d.cgo
  compiler : c.compiler = d.compiler
  buildTags : c.buildTags = d.buildTags
  experiments : ∀ t, isExperimentTag t = true → (t ∈ c.toolTags ↔ t ∈ d.toolTags)

namespace Report

/-- The text has no space and no comma. -/
def IsPlain (text : String) : Prop := ' ' ∉ text.toList ∧ ',' ∉ text.toList

instance (text : String) : Decidable (IsPlain text) := inferInstanceAs (Decidable (_ ∧ _))

/-- The names and tags of the context have no spaces and no commas. -/
structure Plain (c : Context) : Prop where
  os : IsPlain c.os
  arch : IsPlain c.arch
  compiler : IsPlain c.compiler
  buildTags : ∀ t ∈ c.buildTags, IsPlain t
  toolTags : ∀ t ∈ c.toolTags, IsPlain t

/-- The word for a setting, which is left out if there is no value. -/
def word (mark : String) (value : Option String) : List String := value.toList.map (mark ++ ·)

/-- The names with commas between them, if there are any. -/
def listed (names : List String) : Option String :=
  if names.isEmpty then none else some (",".intercalate names)

/-- The compiler, if it is not the standard one. -/
def otherCompiler (c : Context) : Option String :=
  if c.compiler = gcCompiler then none else some c.compiler

variable {c d : Context}

/-! ### Lists in words -/

theorem intercalate_injective {sep : String} {mark : Char} (hsep : sep.toList = [mark])
    {xs ys : List String} (hx : ∀ x ∈ xs, mark ∉ x.toList) (hy : ∀ y ∈ ys, mark ∉ y.toList)
    (hxs : xs ≠ []) (hys : ys ≠ []) (h : sep.intercalate xs = sep.intercalate ys) : xs = ys := by
  have hjoined : [mark].intercalate (xs.map String.toList) =
      [mark].intercalate (ys.map String.toList) := by
    rw [← hsep, ← String.toList_intercalate, ← String.toList_intercalate, h]
  have hlists := Text.eq_of_intercalate_eq (by simpa using hx) (by simpa using hy)
    (by simpa using hxs) (by simpa using hys) hjoined
  exact List.map_injective_iff.2 (fun _ _ => String.toList_injective) hlists

theorem listed_injective {xs ys : List String} (hx : ∀ x ∈ xs, ',' ∉ x.toList)
    (hy : ∀ y ∈ ys, ',' ∉ y.toList) (h : listed xs = listed ys) : xs = ys := by
  unfold listed at h
  cases xs <;> cases ys
  · rfl
  · simp at h
  · simp at h
  · exact intercalate_injective rfl hx hy (by simp) (by simp) (by simpa using h)

theorem space_not_mem_of_listed {names : List String} {value : String}
    (h : ∀ name ∈ names, ' ' ∉ name.toList) (hvalue : listed names = some value) :
    ' ' ∉ value.toList := by
  have hjoin : ",".intercalate names = value := by
    unfold listed at hvalue
    split at hvalue
    · simp at hvalue
    · exact Option.some.inj hvalue
  rw [← hjoin, String.toList_intercalate]
  have hfree : ∀ e ∈ [','].intercalate (names.map String.toList), e ≠ ' ' := by
    refine Text.forall_mem_intercalate (List.forall_mem_singleton.2 (by decide))
      fun cs hcs e he hspace => ?_
    obtain ⟨name, hname, rfl⟩ := List.mem_map.1 hcs
    exact h name hname (hspace ▸ he)
  exact fun hmem => hfree ' ' hmem rfl

/-! ### Experiments -/

theorem isExperimentTag_iff {t : String} :
    isExperimentTag t = true ↔ ∃ name, t = experimentMark ++ name := by
  rw [isExperimentTag, List.isPrefixOf_iff_prefix]
  constructor
  · rintro ⟨name, h⟩
    exact ⟨String.ofList name, String.toList_injective (by simp [← h])⟩
  · rintro ⟨name, rfl⟩
    exact ⟨name.toList, by simp⟩

/-- The name of the experiment whose tag it is. -/
theorem name_eq_some_iff {t name : String} :
    (Text.after? experimentMark.toList t.toList).map String.ofList = some name ↔
      t = experimentMark ++ name := by
  rw [Option.map_eq_some_iff]
  constructor
  · rintro ⟨cs, hcs, rfl⟩
    exact String.toList_injective (by simp [Text.after?_eq_some_iff.1 hcs])
  · rintro rfl
    exact ⟨name.toList, Text.after?_eq_some_iff.2 (by simp), String.ofList_toList⟩

theorem mem_experiments_iff {name : String} :
    name ∈ experiments c ↔ experimentMark ++ name ∈ c.toolTags := by
  simp only [experiments, List.mem_filterMap, name_eq_some_iff]
  exact exists_eq_right

theorem lt_of_append_lt {mark a b : String} (h : mark ++ a < mark ++ b) : a < b := by
  by_contra hlt
  by_cases heq : a = b
  · exact String.lt_irrefl _ (heq ▸ h)
  · have hback : mark ++ b < mark ++ a := by
      rw [String.lt_iff, String.toList_append, String.toList_append]
      exact List.append_left_lt (TagSet.lt_of_not_lt_of_ne hlt heq)
    exact String.lt_irrefl _ (String.lt_trans h hback)

theorem pairwise_experiments (c : Context) : (experiments c).Pairwise (· < ·) := by
  refine List.Pairwise.filterMap _ (fun t u htu name hname other hother => ?_) c.toolTags.sorted
  rw [name_eq_some_iff.1 hname, name_eq_some_iff.1 hother] at htu
  exact lt_of_append_lt htu

/-- The same experiments are shown exactly if their tags are the same. -/
theorem experiments_eq_iff : experiments c = experiments d ↔
    ∀ t, isExperimentTag t = true → (t ∈ c.toolTags ↔ t ∈ d.toolTags) := by
  constructor
  · intro h t ht
    obtain ⟨name, rfl⟩ := isExperimentTag_iff.1 ht
    rw [← mem_experiments_iff, ← mem_experiments_iff, h]
  · intro h
    refine TagSet.eq_of_sorted_of_mem_iff (pairwise_experiments c) (pairwise_experiments d)
      fun name => ?_
    rw [mem_experiments_iff, mem_experiments_iff]
    exact h _ (isExperimentTag_iff.2 ⟨name, rfl⟩)

/-! ### Settings -/

theorem settings_eq (c : Context) :
    settings c = ["GOOS=" ++ c.os, "GOARCH=" ++ c.arch, "CGO_ENABLED=" ++ (if c.cgo then "1" else "0")]
      ++ (word "GOEXPERIMENT=" (listed (experiments c))
        ++ (word "-compiler=" (otherCompiler c) ++ word "-tags=" (listed c.buildTags.toList))) := by
  have hlisted (mark : String) (names : List String) : word mark (listed names) =
      if names.isEmpty then [] else [mark ++ ",".intercalate names] := by
    unfold word listed
    split <;> rfl
  have hcompiler : word "-compiler=" (otherCompiler c) =
      if c.compiler = gcCompiler then [] else ["-compiler=" ++ c.compiler] := by
    unfold word otherCompiler
    split <;> rfl
  rw [hlisted, hlisted, hcompiler, settings]
  simp only [List.append_assoc]

theorem otherCompiler_injective (h : otherCompiler c = otherCompiler d) : c.compiler = d.compiler := by
  unfold otherCompiler at h
  split at h <;> split at h
  · simp_all
  · simp at h
  · simp at h
  · exact Option.some.inj h

theorem append_right_injective {mark a b : String} (h : mark ++ a = mark ++ b) : a = b := by
  have hlists := congrArg String.toList h
  rw [String.toList_append, String.toList_append] at hlists
  exact String.toList_injective (List.append_cancel_left hlists)

/-- A word that may be left out can be told from the words after it, which begin otherwise. -/
theorem word_append_injective {mark : String} {v w : Option String} {xs ys : List String}
    (hx : ∀ value, mark ++ value ∉ xs) (hy : ∀ value, mark ++ value ∉ ys)
    (h : word mark v ++ xs = word mark w ++ ys) : v = w ∧ xs = ys := by
  cases v with
  | none =>
    cases w with
    | none => exact ⟨rfl, h⟩
    | some b =>
      have hcons : xs = (mark ++ b) :: ys := h
      exact absurd (hcons ▸ List.mem_cons_self) (hx b)
  | some a =>
    cases w with
    | none =>
      have hcons : (mark ++ a) :: xs = ys := h
      exact absurd (hcons ▸ List.mem_cons_self) (hy a)
    | some b =>
      obtain ⟨hword, hrest⟩ := List.cons.inj h
      exact ⟨congrArg some (append_right_injective hword), hrest⟩

theorem append_not_mem_word {mark other : String} (hmark : ¬ mark.toList <+: other.toList)
    (hother : ¬ other.toList <+: mark.toList) (value : String) (v : Option String) :
    mark ++ value ∉ word other v := by
  intro hmem
  obtain ⟨a, -, ha⟩ := List.mem_map.1 hmem
  have hlists := congrArg String.toList ha
  rw [String.toList_append, String.toList_append] at hlists
  rcases List.prefix_or_prefix_of_prefix (List.prefix_append other.toList a.toList)
    (hlists ▸ List.prefix_append mark.toList value.toList) with h | h
  · exact hother h
  · exact hmark h

/-- The name of an experiment is a part of its tag. -/
theorem Plain.isPlain_of_mem_experiments (hc : Plain c) : ∀ name ∈ experiments c, IsPlain name := by
  intro name hname
  have htag : IsPlain (experimentMark ++ name) := hc.toolTags _ (mem_experiments_iff.1 hname)
  rw [IsPlain, String.toList_append, List.mem_append, List.mem_append, not_or, not_or] at htag
  exact ⟨htag.1.2, htag.2.2⟩

/-- The words of the settings determine the build. -/
theorem settings_injective (hc : Plain c) (hd : Plain d) (h : settings c = settings d) :
    c.SameBuild d := by
  rw [settings_eq, settings_eq] at h
  simp only [List.cons_append, List.nil_append, List.cons.injEq] at h
  obtain ⟨hos, harch, hcgo, hrest⟩ := h
  have hcompilerTags (value : String) (e : Context) : "-compiler=" ++ value ∉
      word "-tags=" (listed e.buildTags.toList) :=
    append_not_mem_word (by decide) (by decide) _ _
  have hexperiment (value : String) (e : Context) : "GOEXPERIMENT=" ++ value ∉
      word "-compiler=" (otherCompiler e) ++ word "-tags=" (listed e.buildTags.toList) := by
    rw [List.mem_append, not_or]
    exact ⟨append_not_mem_word (by decide) (by decide) _ _,
      append_not_mem_word (by decide) (by decide) _ _⟩
  obtain ⟨hexperiments, hrest⟩ := word_append_injective (hexperiment · c) (hexperiment · d) hrest
  obtain ⟨hcompiler, htags⟩ := word_append_injective (hcompilerTags · c) (hcompilerTags · d) hrest
  have hcgo' : c.cgo = d.cgo := by
    have hdigit := append_right_injective hcgo
    revert hdigit
    cases c.cgo <;> cases d.cgo <;> decide
  have htags' : listed c.buildTags.toList = listed d.buildTags.toList := by
    rw [← List.append_nil (word _ _), ← List.append_nil (word _ (listed d.buildTags.toList))] at htags
    exact (word_append_injective (fun _ => List.not_mem_nil) (fun _ => List.not_mem_nil) htags).1
  exact {
    os := append_right_injective hos
    arch := append_right_injective harch
    cgo := hcgo'
    compiler := otherCompiler_injective hcompiler
    buildTags := TagSet.toList_injective (listed_injective (fun t ht => (hc.buildTags t ht).2)
      (fun t ht => (hd.buildTags t ht).2) htags')
    experiments := experiments_eq_iff.1 (listed_injective
      (fun name hname => (hc.isPlain_of_mem_experiments name hname).2)
      (fun name hname => (hd.isPlain_of_mem_experiments name hname).2) hexperiments) }

theorem settings_congr (h : c.SameBuild d) : settings c = settings d := by
  unfold settings
  rw [h.os, h.arch, h.cgo, h.compiler, h.buildTags, experiments_eq_iff.2 h.experiments]

/-! ### Lines -/

theorem space_not_mem_append {mark value : String} (hmark : ' ' ∉ mark.toList)
    (hvalue : ' ' ∉ value.toList) : ' ' ∉ (mark ++ value).toList := by
  rw [String.toList_append, List.mem_append, not_or]
  exact ⟨hmark, hvalue⟩

theorem space_not_mem_of_mem_word {mark w : String} {v : Option String} (hmark : ' ' ∉ mark.toList)
    (hv : ∀ value, v = some value → ' ' ∉ value.toList) (hw : w ∈ word mark v) : ' ' ∉ w.toList := by
  obtain ⟨value, hvalue, rfl⟩ := List.mem_map.1 hw
  exact space_not_mem_append hmark (hv value (Option.mem_toList.1 hvalue))

theorem Plain.space_not_mem_settings (hc : Plain c) : ∀ w ∈ settings c, ' ' ∉ w.toList := by
  intro w hw
  rw [settings_eq] at hw
  simp only [List.mem_append, List.mem_cons, List.not_mem_nil, or_false] at hw
  rcases hw with (rfl | rfl | rfl) | hw | hw | hw
  · exact space_not_mem_append (by decide) hc.os.1
  · exact space_not_mem_append (by decide) hc.arch.1
  · cases c.cgo <;> decide
  · exact space_not_mem_of_mem_word (by decide)
      (fun _ => space_not_mem_of_listed fun name hname => (hc.isPlain_of_mem_experiments name hname).1)
      hw
  · refine space_not_mem_of_mem_word (by decide) (fun value hvalue => ?_) hw
    unfold otherCompiler at hvalue
    split at hvalue
    · simp at hvalue
    · exact Option.some.inj hvalue ▸ hc.compiler.1
  · exact space_not_mem_of_mem_word (by decide)
      (fun _ => space_not_mem_of_listed fun t ht => (hc.buildTags t ht).1) hw

theorem settings_ne_nil (c : Context) : settings c ≠ [] := by
  rw [settings_eq]
  simp

theorem line_of_ok {r : Report} (hr : r.outcome = .ok c) :
    r.line = r.path ++ ": " ++ " ".intercalate (settings c) := by
  simp only [line, hr]

/-- **The line determines the build.** Two reports on matched files for the same path have the same line
exactly if their contexts build alike. -/
theorem line_eq_iff {r s : Report} (hpath : r.path = s.path) (hr : r.outcome = .ok c)
    (hs : s.outcome = .ok d) (hc : Plain c) (hd : Plain d) : r.line = s.line ↔ c.SameBuild d := by
  rw [line_of_ok hr, line_of_ok hs, hpath]
  constructor
  · intro h
    have hwords : settings c = settings d :=
      intercalate_injective rfl hc.space_not_mem_settings hd.space_not_mem_settings
        (settings_ne_nil c) (settings_ne_nil d) (append_right_injective h)
    exact settings_injective hc hd hwords
  · exact fun h => congrArg _ (congrArg _ (settings_congr h))

/-- The line shows neither the release nor a tag of the toolchain that is no experiment, and it shows an
empty tag of the user. -/
theorem line_eq_iff_gccgo :
    let c : Context :=
      { os := "linux", arch := "amd64", compiler := "gccgo", cgo := true,
        buildTags := .ofList ["netgo", ""], toolTags := .ofList ["goexperiment.arenas"] }
    let d : Context :=
      { c with
        toolTags := .ofList ["race", "goexperiment.arenas"],
        releaseTags := Context.releasesThrough 21 }
    let e : Context := { c with buildTags := .ofList ["netgo"] }
    let report (x : Context) : Report := .ofResult "a.go" [] (.ok x)
    (Plain c ∧ Plain d ∧ Plain e) ∧ (report c).line = (report d).line ∧
      (report c).line ≠ (report e).line := by
  intro c d e report
  have hc : Plain c := ⟨by decide, by decide, by decide, by decide, by decide⟩
  have hd : Plain d := ⟨by decide, by decide, by decide, by decide, by decide⟩
  have he : Plain e := ⟨by decide, by decide, by decide, by decide, by decide⟩
  have hsame : c.SameBuild d :=
    { os := rfl
      arch := rfl
      cgo := rfl
      compiler := rfl
      buildTags := rfl
      experiments := experiments_eq_iff.1 (by decide) }
  have hother : ¬ c.SameBuild e := fun h => absurd h.buildTags (by decide)
  exact ⟨⟨hc, hd, he⟩, (line_eq_iff (r := report c) (s := report d) rfl rfl rfl hc hd).2 hsame,
    mt (line_eq_iff (r := report c) (s := report e) rfl rfl rfl hc he).1 hother⟩

end Report

end GoBuild
