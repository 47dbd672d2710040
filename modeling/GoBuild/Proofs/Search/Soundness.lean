import GoBuild.Proofs.Search.Placement
import GoBuild.Proofs.Search.Run
import GoBuild.Proofs.Selection.Constraint
import GoBuild.Proofs.Selection.FileName

/-!
# Contexts found select the file

The search works with the constraint of a file and the platform that its name demands, selection with
the directives of its header and with the demanded names as tags. A context that the search finds is
one that selects the file (`Matcher.selects_of_find`).
-/

namespace GoBuild.Matcher

variable {m : Matcher} {start c : Context} {path : String} {content : List UInt8}

/-- The file name allows the platform of a context found. -/
theorem allows_of_find (h : m.find start path content = .ok c) :
    (Source.Mandate.ofPath path).allowsOs c.os = true ∧
      (Source.Mandate.ofPath path).allowsArch c.arch = true := by
  rcases platform_cases_of_find h with ⟨hos, harch⟩ | ⟨x, hv⟩
  · have hfits := (Source.Mandate.ofPath path).fits_place m.targets (m.filled start)
    rw [hos, harch]
    exact ⟨hfits.allowsOs, hfits.allowsArch⟩
  · have hallowsOs := hv.allowsOs
    have hallowsArch := hv.allowsArch
    rw [problem_mandate] at hallowsOs hallowsArch
    exact ⟨hallowsOs, hallowsArch⟩

/-- A context found for a file selects it. -/
theorem selects_of_find (h : m.find start path content = .ok c) :
    c.selects path content = .ok true := by
  obtain ⟨x?, hcon, hholds⟩ := holds_of_find h
  obtain ⟨hos, harch⟩ := allows_of_find h
  rw [Context.selects_of_constraintOf hcon, Context.admitsName_of_allows hos harch, hholds]
  rfl

/-- A move to another operating system that also sets a tag of the user. -/
theorem selects_of_find_windows :
    let m : Matcher := ⟨.builtin, {}⟩
    let start : Context := { os := "linux", arch := "amd64" }
    let content := "//go:build windows && purego\n\npackage a\n".toUTF8.toList
    let c : Context :=
      { os := "windows", arch := "amd64", compiler := "gc", buildTags := .ofList ["purego"] }
    m.find start "a_amd64.go" content = .ok c ∧ c.selects "a_amd64.go" content = .ok true := by
  intro m start content c
  have hfind : m.find start "a_amd64.go" content = .ok c := by decide +kernel
  exact ⟨hfind, selects_of_find hfind⟩

end GoBuild.Matcher
