import GoBuild.CommandLine.Program
import GoBuild.Proofs.Platform.Release

/-!
# Versions and release tags

The version that the options name decides the release tags of the starting context. A version is read as
`n` if it writes `n` in a release tag with or without its first two letters, and then the context holds
exactly the tags of the releases from 1 to `n`; any other version is refused
(`Program.releases_agree`).
-/

namespace GoBuild.Program

variable {o : Options} {version : String} {k n : Nat}

theorem exists_startOf (hversion : o.value? .goVersion = some version)
    (hread : minorOfVersion? version = some n) :
    ∃ start, startOf o = .ok start ∧ start.releaseTags = Context.releasesThrough n := by
  simp only [startOf, hversion, hread]
  exact ⟨_, rfl, rfl⟩

theorem startOf_of_malformed (hversion : o.value? .goVersion = some version)
    (hread : minorOfVersion? version = none) : startOf o = .error (.badVersion version) := by
  simp only [startOf, hversion, hread]
  rfl

theorem releaseTag_mem_releasesThrough_iff :
    releaseTag k ∈ Context.releasesThrough n ↔ 1 ≤ k ∧ k ≤ n := by
  rw [Context.releasesThrough, TagSet.mem_ofList, releaseTag_mem_releaseTagsThrough_iff]

/-- **Versions and release tags agree.** A text names a release if it is the mark of releases and one or
more ASCII digits for a number of 32 bits. The tags through a release are those that name it and the
releases before it, each once and without zeros in front. And a version that names a release, with or
without the first two letters, gives a start with the tags through that release; there is no start for
any other version. -/
theorem releases_agree :
    (∀ text n, releaseMinor? text = some n ↔ NamesRelease text n) ∧
    (∀ n < minorBound, (releaseTagsThrough n).Nodup ∧
      (∀ t, t ∈ releaseTagsThrough n ↔ ∃ k, 1 ≤ k ∧ k ≤ n ∧ t = "go1." ++ toString k) ∧
      ∀ k, 1 ≤ k → k ≤ n → releaseMinor? ("go1." ++ toString k) = some k) ∧
    ∀ (o : Options) (version : String), o.value? .goVersion = some version →
      (∀ n, minorOfVersion? version = some n ↔
        NamesRelease version n ∨ NamesRelease ("go" ++ version) n) ∧
      (∀ n, minorOfVersion? version = some n → ∃ start, startOf o = .ok start ∧
        ∀ k, "go1." ++ toString k ∈ start.releaseTags ↔ 1 ≤ k ∧ k ≤ n) ∧
      (minorOfVersion? version = none → startOf o = .error (.badVersion version)) := by
  simp only [← releaseTag_eq]
  refine ⟨fun text n => releaseMinor?_eq_some_iff, fun n hn => ⟨nodup_releaseTagsThrough n,
    fun t => mem_releaseTagsThrough_iff, fun k _ hk => releaseMinor?_releaseTag (by omega)⟩,
    fun o version hversion => ⟨fun n => minorOfVersion?_eq_some_iff, fun n hread => ?_,
      startOf_of_malformed hversion⟩⟩
  obtain ⟨start, hstart, htags⟩ := exists_startOf hversion hread
  refine ⟨start, hstart, fun k => ?_⟩
  rw [htags, releaseTag_mem_releasesThrough_iff]

/-- The tags through `go1.12`, and three versions: zeros in front of the number are read over, digits of
another script are not read. -/
theorem releases_agree_go1_12 :
    (∀ t, t ∈ releaseTagsThrough 12 ↔ ∃ k, 1 ≤ k ∧ k ≤ 12 ∧ t = "go1." ++ toString k) ∧
    (∀ version ∈ ["go1.12", "1.0012"],
      ∃ start, startOf { values := [(.goVersion, version)] } = .ok start ∧
        ∀ k, "go1." ++ toString k ∈ start.releaseTags ↔ 1 ≤ k ∧ k ≤ 12) ∧
    startOf { values := [(.goVersion, "1.\u0667")] } = .error (.badVersion "1.\u0667") := by
  have hread : ∀ version ∈ ["go1.12", "1.0012"], minorOfVersion? version = some 12 := by
    decide +kernel
  have hmalformed : minorOfVersion? "1.\u0667" = none := by decide +kernel
  exact ⟨(releases_agree.2.1 12 (by decide)).2.1,
    fun version hmem => (releases_agree.2.2 _ version rfl).2.1 12 (hread version hmem),
    (releases_agree.2.2 _ "1.\u0667" rfl).2.2 hmalformed⟩

end GoBuild.Program
