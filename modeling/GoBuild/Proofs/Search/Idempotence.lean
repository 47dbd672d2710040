import GoBuild.Proofs.Search.Placement
import GoBuild.Proofs.Search.Table

/-!
# Searching again from a context found

A context found is one that the search leaves as it is: it has no gaps to fill
(`Matcher.noGaps_of_find`), its platform fits the file name (`Matcher.fits_of_find`), and the
constraint holds in it, so the first step finds it. This needs a closed table, since the search may
else go to platforms of which the table has one half only.
-/

namespace GoBuild

/-! ### Gaps -/

/-- The host has no name for what is empty in the context. -/
structure Context.NoGaps (c : Context) (host : Host) : Prop where
  os : c.os = "" → host.os = ""
  arch : c.arch = "" → host.arch = ""
  compiler : c.compiler = "" → host.compiler = ""

theorem Context.noGaps_fill (c : Context) (host : Host) : (c.fill host).NoGaps host := by
  constructor <;>
  · simp only [fill]
    split
    · exact id
    · exact fun h => absurd h ‹_›

theorem Context.fill_of_noGaps {c : Context} {host : Host} (h : c.NoGaps host) :
    c.fill host = c := by
  have hkeep : ∀ {own other : String}, (own = "" → other = "") →
      (if own = "" then other else own) = own := by
    intro own other hgap
    split
    · rename_i hempty
      rw [hempty, hgap hempty]
    · rfl
  rw [fill, hkeep h.os, hkeep h.arch, hkeep h.compiler]

/-! ### Platforms -/

/-- Over a closed table the search goes to pairs of the table only. -/
theorem Problem.Visits.isValid {p : Problem} {s : Context} {os arch : String}
    (ht : p.targets.Closed) (hv : p.Visits s os arch) : p.targets.isValid os arch = true := by
  rcases hv.isValid_cases with hvalid | ⟨hlisted, hnone, -⟩ | ⟨hlisted, hnone, -⟩
  · exact hvalid
  · exact absurd hnone (ht.archesFor?_ne_none hlisted)
  · exact absurd hnone (ht.osesFor?_ne_none hlisted)

namespace Matcher

variable {m : Matcher} {start c : Context} {path : String} {content : List UInt8}

/-- Placing a context makes no name empty. -/
theorem noGaps_baseFor {host : Host} (ht : m.targets.Closed) (h : (m.filled start).NoGaps host) :
    (m.baseFor start path).NoGaps host := by
  rw [baseFor]
  constructor
  · rw [Source.Mandate.place_os]
    refine Source.Mandate.settle_fst_of (P := fun os => os = "" → host.os = "") h.os ?_ ?_
    · rintro demanded hdemand rfl
      exact absurd (Source.Mandate.isKnownOs_of_ofPath hdemand) (by decide)
    · exact fun row hrow hempty => absurd hempty (ht.names_ne row hrow).1
  · rw [Source.Mandate.place_arch]
    refine Source.Mandate.settle_snd_of (P := fun arch => arch = "" → host.arch = "") h.arch ?_ ?_
    · rintro demanded hdemand rfl
      exact absurd (Source.Mandate.isKnownArch_of_ofPath hdemand) (by decide)
    · exact fun row hrow hempty => absurd hempty (ht.names_ne row hrow).2
  · rw [Source.Mandate.place_compiler]
    exact h.compiler

theorem compiler_of_find (h : m.find start path content = .ok c) :
    c.compiler = (m.baseFor start path).compiler := by
  rcases cases_of_find h with ⟨-, rfl⟩ | ⟨x, _, -, -, htries, -⟩
  · rfl
  · exact htries.adjusts.compiler

/-- A context found has no gaps that would be filled. -/
theorem noGaps_of_find (ht : m.targets.Closed) (hfill : m.config.fillHostDefaults = true)
    (h : m.find start path content = .ok c) : c.NoGaps m.config.hostOrDetected := by
  have hfilled : (m.filled start).NoGaps m.config.hostOrDetected := by
    rw [filled, if_pos hfill]
    exact start.noGaps_fill _
  have hbase : (m.baseFor start path).NoGaps m.config.hostOrDetected := noGaps_baseFor ht hfilled
  have hcompiler : c.compiler = "" → m.config.hostOrDetected.compiler = "" := by
    rw [compiler_of_find h]
    exact hbase.compiler
  rcases platform_cases_of_find h with ⟨hos, harch⟩ | ⟨x, hv⟩
  · refine ⟨?_, ?_, hcompiler⟩
    · rw [hos]
      exact hbase.os
    · rw [harch]
      exact hbase.arch
  · obtain ⟨hos, harch⟩ := ht.ne_of_isValid (hv.isValid ht)
    exact ⟨fun hempty => absurd hempty hos, fun hempty => absurd hempty harch, hcompiler⟩

/-- The platform of a context found fits the file name. -/
theorem fits_of_find (ht : m.targets.Closed) (h : m.find start path content = .ok c) :
    (Source.Mandate.ofPath path).Fits m.targets c.os c.arch := by
  rcases platform_cases_of_find h with ⟨hos, harch⟩ | ⟨x, hv⟩
  · rw [hos, harch]
    exact (Source.Mandate.ofPath path).fits_place m.targets (m.filled start)
  · have hallowsOs := hv.allowsOs
    have hallowsArch := hv.allowsArch
    have hvalid := hv.isValid ht
    rw [problem_mandate] at hallowsOs hallowsArch
    rw [problem_targets] at hvalid
    exact Source.Mandate.fits_of_isValid hallowsOs hallowsArch hvalid

/-- A search from a context without gaps whose platform fits the file name starts with that
context. -/
theorem baseFor_of_fits
    (hgaps : m.config.fillHostDefaults = true → c.NoGaps m.config.hostOrDetected)
    (hfits : (Source.Mandate.ofPath path).Fits m.targets c.os c.arch) : m.baseFor c path = c := by
  have hfilled : m.filled c = c := by
    unfold filled
    split
    · rename_i hfill
      exact Context.fill_of_noGaps (hgaps hfill)
    · rfl
  rw [baseFor, hfilled]
  exact Source.Mandate.place_of_fits hfits

/-- The search ends at once if the constraint holds in the base context. -/
theorem find_of_holds_base {x? : Option Expr} (hcon : constraintOf content = .ok x?)
    (hholds : x?.elim true (m.baseFor start path).holds = true) :
    m.find start path content = .ok (m.baseFor start path) := by
  cases x? with
  | none => rw [find, hcon]
  | some x =>
    have hbase : (m.problem start path x).holds (m.baseFor start path) = true := hholds
    have hdirect : (m.problem start path x).run .direct = .ok (some (m.baseFor start path)) := by
      rw [Problem.run, problem_base, Problem.accept?_eq_some_iff.2 ⟨rfl, hbase⟩]
    obtain ⟨rest, horder⟩ : ∃ rest, Step.order.filter m.config.allows = .direct :: rest := ⟨_, rfl⟩
    rw [find_of_constraintOf hcon, horder, Problem.runAll, hdirect]
    rfl

/-- A context with which the search starts and in which the constraint holds is found. -/
theorem find_eq_self {x? : Option Expr} (hbase : m.baseFor c path = c)
    (hcon : constraintOf content = .ok x?) (hholds : x?.elim true c.holds = true) :
    m.find c path content = .ok c := by
  have hfind : m.find c path content = .ok (m.baseFor c path) :=
    find_of_holds_base hcon (by rw [hbase]; exact hholds)
  rw [hfind, hbase]

/-- The table of the newest release, seen from the detected host, is closed, and over every closed
table a search from a context found finds that context again. -/
theorem find_idempotent :
    Targets.builtin.Closed ∧
      ∀ {m : Matcher} {start c : Context} {path : String} {content : List UInt8},
        m.targets.Closed → m.find start path content = .ok c → m.find c path content = .ok c := by
  refine ⟨Targets.closed_builtin, fun {m start c path content} ht h => ?_⟩
  obtain ⟨x?, hcon, hholds⟩ := holds_of_find h
  have hbase : m.baseFor c path = c := baseFor_of_fits (noGaps_of_find ht · h) (fits_of_find ht h)
  exact find_eq_self hbase hcon hholds

/-- The gaps of the start are filled, and the search goes to another architecture and enables cgo. -/
theorem find_idempotent_linux_arm64 :
    let m : Matcher := ⟨.builtin, {}⟩
    let content := "//go:build arm64 && cgo\n\npackage a\n".toUTF8.toList
    let c : Context := { os := "linux", arch := "arm64", compiler := "gc", cgo := true }
    m.targets.Closed ∧ m.find {} "a_linux.go" content = .ok c ∧
      m.find c "a_linux.go" content = .ok c := by
  intro m content c
  have hfind : m.find {} "a_linux.go" content = .ok c := by decide +kernel
  exact ⟨Targets.closed_builtin, hfind, find_idempotent.2 Targets.closed_builtin hfind⟩

end Matcher

end GoBuild
