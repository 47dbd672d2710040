import GoBuild.Proofs.Search.Idempotence
import GoBuild.Proofs.Search.Soundness

/-!
# The platform that a file name demands

Every context found is on the platform that the file name demands, whatever tags it has
(`Matcher.platform_of_find`). Selection only asks that the demanded names hold as tags, so a context
with names of platforms among its own tags can be selected away from that platform. One without such
tags cannot (`Context.admitsName_iff`), and so the search returns it as it is if it already selects
the file (`Matcher.find_of_selects`).
-/

namespace GoBuild

namespace Matcher

variable {m : Matcher} {start c : Context} {path : String} {content : List UInt8}

/-! ### Contexts found -/

/-- A context found is on the operating system that the file name demands or on one that counts as
it, and on the architecture that the file name demands. -/
theorem platform_of_find (h : m.find start path content = .ok c) :
    (∀ demanded, (Source.Mandate.ofPath path).os = some demanded →
        c.os = demanded ∨ impliedOs? c.os = some demanded) ∧
      ∀ demanded, (Source.Mandate.ofPath path).arch = some demanded → c.arch = demanded := by
  obtain ⟨hos, harch⟩ := allows_of_find h
  exact ⟨Source.Mandate.allowsOs_iff.1 hos, Source.Mandate.allowsArch_iff.1 harch⟩

/-- The start is on `windows` and has the tag `linux`, with which it satisfies the name as it is. -/
theorem platform_of_find_android :
    let m : Matcher := ⟨.builtin, {}⟩
    let start : Context := { os := "windows", arch := "amd64", buildTags := .ofList ["linux"] }
    let content := "//go:build android && purego\n\npackage a\n".toUTF8.toList
    ∃ c, m.find start "a_linux_arm64.go" content = .ok c ∧
      (c.os = "linux" ∨ impliedOs? c.os = some "linux") ∧ c.arch = "arm64" := by
  intro m start content
  let c : Context :=
    { os := "android", arch := "arm64", compiler := "gc", buildTags := .ofList ["linux", "purego"] }
  have hfind : m.find start "a_linux_arm64.go" content = .ok c := by decide +kernel
  obtain ⟨hos, harch⟩ := platform_of_find hfind
  exact ⟨c, hfind, hos "linux" (by decide), harch "arm64" (by decide)⟩

/-! ### Contexts that select the file already -/

theorem noGaps_of_onKnownPlatform {host : Host} (hc : c.OnKnownPlatform) (h : c.compiler ≠ "") :
    c.NoGaps host := by
  have hos : c.os ≠ "" := by
    intro hempty
    exact absurd hc.os (by rw [hempty]; decide)
  have harch : c.arch ≠ "" := by
    intro hempty
    exact absurd hc.arch (by rw [hempty]; decide)
  exact ⟨fun hempty => absurd hempty hos, fun hempty => absurd hempty harch,
    fun hempty => absurd hempty h⟩

/-- A start without gaps on a platform of the table and without platforms among its tags is returned
as it is if it selects the file. -/
theorem find_of_selects {x? : Option Expr} (hcon : constraintOf content = .ok x?)
    (hc : start.OnKnownPlatform) (hcompiler : start.compiler ≠ "")
    (hvalid : m.targets.isValid start.os start.arch = true) (hn : start.NoPlatformTags)
    (h : start.selects path content = .ok true) : m.find start path content = .ok start := by
  rw [Context.selects_of_constraintOf hcon, Except.ok.injEq, Bool.and_eq_true] at h
  obtain ⟨hname, hholds⟩ := h
  obtain ⟨hos, harch⟩ := (Context.admitsName_iff hc hn).1 hname
  have hbase : m.baseFor start path = start :=
    baseFor_of_fits (fun _ => noGaps_of_onKnownPlatform hc hcompiler)
      (Source.Mandate.fits_of_isValid hos harch hvalid)
  exact find_eq_self hbase hcon hholds

/-- A start on `android` is kept for a file meant for `linux`. -/
theorem find_of_selects_android :
    let m : Matcher := ⟨.builtin, {}⟩
    let start : Context := { Context.ofPlatform "android" "arm64" with buildTags := .ofList ["purego"] }
    let content := "//go:build unix && purego\n\npackage a\n".toUTF8.toList
    start.selects "a_linux.go" content = .ok true ∧
      m.find start "a_linux.go" content = .ok start := by
  intro m start content
  have hcon : constraintOf content = .ok (some (.and (.tag "unix") (.tag "purego"))) := by
    decide +kernel
  have hn : start.NoPlatformTags := ⟨by decide, by decide +kernel⟩
  have hselects : start.selects "a_linux.go" content = .ok true := by decide +kernel
  exact ⟨hselects,
    find_of_selects hcon ⟨by decide, by decide⟩ (by decide) (by decide +kernel) hn hselects⟩

end Matcher

end GoBuild
