import GoBuild.Proofs.Platform.Targets
import GoBuild.Proofs.Search.Run

/-!
# Searching inside and outside of the table

If the constraint mentions one half of the platform only, the search tries names that the table need
not have, since the host's name and the preferred ones come before those of the table. With a name
without a row it keeps the other half of the pair as it is (`Problem.Visits.isValid_cases`). So a
context found on another platform is on a pair of the table exactly if the table has a row for each
half (`Matcher.isValid_iff_of_find`).
-/

namespace GoBuild

namespace Problem

variable {p : Problem} {s : Context} {os arch : String}

/-! ### Counterparts -/

theorem mem_of_mem_counterparts {valid preferred : List String} {name current : String}
    (h : name ∈ counterparts (some valid) current preferred) : name ∈ valid := by
  unfold counterparts at h
  dsimp only at h
  split at h
  · rename_i hcurrent
    rw [List.mem_singleton.1 h]
    exact List.contains_iff_mem.1 hcurrent
  · exact List.contains_iff_mem.1 (List.mem_filter.1 h).2

theorem eq_of_mem_counterparts_none {preferred : List String} {name current : String}
    (h : name ∈ counterparts none current preferred) : name = current :=
  List.mem_singleton.1 h

/-- If `name` is a value to choose from, then `name` or, if it is among the valid values, the current
value is tried. -/
theorem exists_counterpart {P : String → Prop} {valid preferred : List String}
    {name current : String} (hvalid : name ∈ valid) (hlisted : name ∈ preferred) (hname : P name)
    (hcurrent : current ∈ valid → P current) :
    ∃ tried ∈ counterparts (some valid) current preferred, tried ∈ valid ∧ P tried := by
  unfold counterparts
  dsimp only
  split
  · rename_i hmem
    have hmem : current ∈ valid := List.contains_iff_mem.1 hmem
    exact ⟨current, List.mem_singleton_self current, hmem, hcurrent hmem⟩
  · exact ⟨name, List.mem_filter.2 ⟨hlisted, List.contains_iff_mem.2 hvalid⟩, hvalid, hname⟩

/-! ### Platforms of a search -/

/-- The search goes to pairs of the table, and with names without a row to pairs that keep the other
half. -/
theorem Visits.isValid_cases (hv : p.Visits s os arch) :
    p.targets.isValid os arch = true ∨
      (os ∈ p.targets.preferredOses ∧ p.targets.archesFor? os = none ∧ arch = s.arch) ∨
      (arch ∈ p.targets.preferredArches ∧ p.targets.osesFor? arch = none ∧ os = s.os) := by
  cases hv.lists with
  | table _ _ hvalid _ => exact Or.inl hvalid
  | oses _ _ hlisted _ hpair =>
    cases hrow : p.targets.archesFor? os with
    | none =>
      rw [hrow] at hpair
      exact Or.inr (Or.inl ⟨hlisted, rfl, eq_of_mem_counterparts_none hpair⟩)
    | some valid =>
      rw [hrow] at hpair
      exact Or.inl ((Targets.mem_archesFor? hrow).1 (mem_of_mem_counterparts hpair))
  | arches _ _ hlisted _ hpair =>
    cases hrow : p.targets.osesFor? arch with
    | none =>
      rw [hrow] at hpair
      exact Or.inr (Or.inr ⟨hlisted, rfl, eq_of_mem_counterparts_none hpair⟩)
    | some valid =>
      rw [hrow] at hpair
      exact Or.inl ((Targets.mem_osesFor? hrow).1 (mem_of_mem_counterparts hpair))

/-- A pair to which the search goes is in the table exactly if both halves are. -/
theorem Visits.isValid_iff (hv : p.Visits s os arch) : p.targets.isValid os arch = true ↔
    (∃ row ∈ p.targets.table, row.os = os) ∧ ∃ row ∈ p.targets.table, row.arch = arch := by
  constructor
  · intro hvalid
    obtain ⟨row, hrow, hos, harch⟩ := Targets.isValid_iff.1 hvalid
    exact ⟨⟨row, hrow, hos⟩, ⟨row, hrow, harch⟩⟩
  · rintro ⟨hos, harch⟩
    rcases hv.isValid_cases with hvalid | ⟨-, hnone, -⟩ | ⟨-, hnone, -⟩
    · exact hvalid
    · exact absurd hnone (Targets.archesFor?_ne_none_iff.2 hos)
    · exact absurd hnone (Targets.osesFor?_ne_none_iff.2 harch)

end Problem

namespace Matcher

variable {m : Matcher} {start c : Context} {path : String} {content : List UInt8}

/-- A context found on another platform than the base context is on a pair of the table exactly if
the table has a row for its operating system and one for its architecture. -/
theorem isValid_iff_of_find (h : m.find start path content = .ok c)
    (hmoved : ¬ (c.os = (m.baseFor start path).os ∧ c.arch = (m.baseFor start path).arch)) :
    m.targets.isValid c.os c.arch = true ↔
      (∃ row ∈ m.targets.table, row.os = c.os) ∧ ∃ row ∈ m.targets.table, row.arch = c.arch := by
  rcases platform_cases_of_find h with hsame | ⟨x, hv⟩
  · exact absurd hsame hmoved
  · exact hv.isValid_iff

/-- Of two systems asked for, the one that the table has comes first. -/
theorem isValid_iff_of_find_openbsd :
    let table : List Platform :=
      [⟨"linux", "amd64", true, true⟩, ⟨"openbsd", "amd64", true, false⟩]
    let m : Matcher := ⟨⟨table, .detected⟩, {}⟩
    let content := "//go:build freebsd || openbsd\n\npackage p\n".toUTF8.toList
    let c : Context := { os := "openbsd", arch := "amd64", compiler := "gc" }
    m.find {} "b.go" content = .ok c ∧ m.targets.isValid c.os c.arch = true := by
  intro table m content c
  have hfind : m.find {} "b.go" content = .ok c := by decide +kernel
  have hmoved : ¬ (c.os = (m.baseFor {} "b.go").os ∧ c.arch = (m.baseFor {} "b.go").arch) := by
    decide +kernel
  exact ⟨hfind, (isValid_iff_of_find hfind hmoved).2 (by decide)⟩

/-- The table has no row for the system asked for, and the search goes there all the same. -/
theorem not_isValid_of_find_freebsd :
    let table : List Platform :=
      [⟨"linux", "amd64", true, true⟩, ⟨"openbsd", "amd64", true, false⟩]
    let m : Matcher := ⟨⟨table, .detected⟩, {}⟩
    let content := "//go:build freebsd\n\npackage p\n".toUTF8.toList
    let c : Context := { os := "freebsd", arch := "amd64", compiler := "gc" }
    m.find {} "b.go" content = .ok c ∧
      ¬ (c.os = (m.baseFor {} "b.go").os ∧ c.arch = (m.baseFor {} "b.go").arch) ∧
      m.targets.isValid c.os c.arch = false := by
  decide +kernel

end Matcher

end GoBuild
