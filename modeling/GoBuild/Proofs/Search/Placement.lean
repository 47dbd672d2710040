import GoBuild.Proofs.Context.Tags
import GoBuild.Proofs.Platform.Targets
import GoBuild.Proofs.Source.FileName
import GoBuild.Search.Placement

/-!
# Placing a context

A platform fits a file name if the name allows both halves and, where it demands one half only, the
other half goes with that (`Mandate.Fits`). A context is placed on a platform that fits
(`Mandate.fits_settle`), and stays where it is if its platform fits (`Mandate.place_of_fits`).
Placing changes the platform and cgo, nothing else, and of these no more than it has to
(`Mandate.placed_place`).
-/

namespace GoBuild.Source.Mandate

variable {m : Mandate} {t : Targets} {os arch : String}

/-! ### Platforms that fit -/

/-- The file name allows the platform; if it demands one half only and the table has rows for that,
the platform is in the table. -/
structure Fits (m : Mandate) (t : Targets) (os arch : String) : Prop where
  allowsOs : m.allowsOs os = true
  allowsArch : m.allowsArch arch = true
  isValid_of_os : m.os ≠ none → m.arch = none → t.archesFor? os ≠ none → t.isValid os arch = true
  isValid_of_arch : m.os = none → m.arch ≠ none → t.osesFor? arch ≠ none → t.isValid os arch = true

/-- A platform of the table fits if both halves are allowed. -/
theorem fits_of_isValid (hos : m.allowsOs os = true) (harch : m.allowsArch arch = true)
    (h : t.isValid os arch = true) : m.Fits t os arch :=
  ⟨hos, harch, fun _ _ _ => h, fun _ _ _ => h⟩

theorem settleOs_of_allowsOs (h : m.allowsOs os = true) : m.settleOs os = os := if_pos h

theorem settleArch_of_allowsArch (h : m.allowsArch arch = true) : m.settleArch arch = arch := by
  unfold allowsArch at h
  unfold settleArch
  cases ha : m.arch with
  | none => rfl
  | some demanded =>
    rw [ha] at h
    exact of_decide_eq_true h

/-! ### The three kinds of demand -/

theorem settle_of_os {demanded : String} (ho : m.os = some demanded) (ha : m.arch = none) :
    m.settle t os arch = (m.settleOs os, (t.supportedArch? (m.settleOs os) arch).getD arch) := by
  simp only [settle, ho, ha]

theorem settle_of_arch {demanded : String} (ho : m.os = none) (ha : m.arch = some demanded) :
    m.settle t os arch = ((t.supportedOs? demanded os).getD os, demanded) := by
  simp only [settle, ho, ha]

theorem settle_of_isSome_eq (h : m.os.isSome = m.arch.isSome) :
    m.settle t os arch = (m.settleOs os, m.settleArch arch) := by
  unfold settle
  split
  · rename_i ho ha
    rw [ho, ha] at h
    cases h
  · rename_i ho ha
    rw [ho, ha] at h
    cases h
  · rfl

/-- A file name demands only an operating system, only an architecture, or as much of one as of the
other. -/
theorem demand_cases (m : Mandate) :
    (∃ demanded, m.os = some demanded ∧ m.arch = none) ∨
      (∃ demanded, m.os = none ∧ m.arch = some demanded) ∨ m.os.isSome = m.arch.isSome := by
  cases m.os <;> cases m.arch <;> simp

/-- A context is placed on a platform that fits. -/
theorem fits_settle (m : Mandate) (t : Targets) (os arch : String) :
    m.Fits t (m.settle t os arch).1 (m.settle t os arch).2 := by
  rcases m.demand_cases with ⟨demanded, ho, ha⟩ | ⟨demanded, ho, ha⟩ | h
  · rw [settle_of_os ho ha]
    refine ⟨m.allowsOs_settleOs os, by simp [allowsArch, ha], fun _ _ hrow => ?_, fun h => ?_⟩
    · rcases t.supportedArch?_cases (m.settleOs os) arch with ⟨hnone, -⟩ | ⟨a, hvalid, hsome⟩
      · exact absurd hnone hrow
      · rwa [hsome]
    · rw [ho] at h
      cases h
  · rw [settle_of_arch ho ha]
    refine ⟨by simp [allowsOs, ho], by simp [allowsArch, ha], fun h => absurd ho h,
      fun _ _ hrow => ?_⟩
    rcases t.supportedOs?_cases demanded os with ⟨hnone, -⟩ | ⟨o, hvalid, hsome⟩
    · exact absurd hnone hrow
    · rwa [hsome]
  · rw [settle_of_isSome_eq h]
    refine ⟨m.allowsOs_settleOs os, m.allowsArch_settleArch arch, fun ho ha => ?_, fun ho ha => ?_⟩
    · rw [ha, Option.isSome_none, Option.isSome_eq_false_iff, Option.isNone_iff_eq_none] at h
      exact absurd h ho
    · rw [ho, Option.isSome_none, eq_comm, Option.isSome_eq_false_iff,
        Option.isNone_iff_eq_none] at h
      exact absurd h ha

/-- A platform that fits is kept. -/
theorem settle_of_fits (h : m.Fits t os arch) : m.settle t os arch = (os, arch) := by
  have hos := settleOs_of_allowsOs h.allowsOs
  have harch := settleArch_of_allowsArch h.allowsArch
  rcases m.demand_cases with ⟨demanded, ho, ha⟩ | ⟨demanded, ho, ha⟩ | hboth
  · rw [settle_of_os ho ha, hos]
    rcases t.supportedArch?_cases os arch with ⟨-, hsome⟩ | ⟨a, hvalid, -⟩
    · rw [hsome, Option.getD_some]
    · have hrow := h.isValid_of_os (by simp [ho]) ha (Targets.archesFor?_ne_none hvalid)
      rw [Targets.supportedArch?_of_isValid hrow, Option.getD_some]
  · have hd : demanded = arch := by simpa [settleArch, ha] using harch
    subst hd
    rw [settle_of_arch ho ha]
    rcases t.supportedOs?_cases demanded os with ⟨-, hsome⟩ | ⟨o, hvalid, -⟩
    · rw [hsome, Option.getD_some]
    · have hrow := h.isValid_of_arch ho (by simp [ha]) (Targets.osesFor?_ne_none hvalid)
      rw [Targets.supportedOs?_of_isValid hrow, Option.getD_some]
  · rw [settle_of_isSome_eq hboth, hos, harch]

/-! ### Where the names come from -/

variable {P : String → Prop}

theorem settleOs_of (hos : P os) (hdemand : ∀ demanded, m.os = some demanded → P demanded) :
    P (m.settleOs os) := by
  unfold settleOs
  split
  · exact hos
  · cases hm : m.os with
    | none => exact hos
    | some demanded => exact hdemand demanded hm

theorem settleArch_of (harch : P arch)
    (hdemand : ∀ demanded, m.arch = some demanded → P demanded) : P (m.settleArch arch) := by
  unfold settleArch
  cases hm : m.arch with
  | none => exact harch
  | some demanded => exact hdemand demanded hm

/-- What is true of the operating system of a context, of a demanded one, and of those in the table
is true of the one on which the context is placed. -/
theorem settle_fst_of (hos : P os) (hdemand : ∀ demanded, m.os = some demanded → P demanded)
    (htable : ∀ row ∈ t.table, P row.os) : P (m.settle t os arch).1 := by
  rcases m.demand_cases with ⟨demanded, ho, ha⟩ | ⟨demanded, ho, ha⟩ | h
  · rw [settle_of_os ho ha]
    exact settleOs_of hos hdemand
  · rw [settle_of_arch ho ha]
    rcases t.supportedOs?_cases demanded os with ⟨-, hsome⟩ | ⟨found, hvalid, hsome⟩
    · rw [hsome]
      exact hos
    · obtain ⟨row, hrow, rfl, -⟩ := Targets.isValid_iff.1 hvalid
      rw [hsome]
      exact htable row hrow
  · rw [settle_of_isSome_eq h]
    exact settleOs_of hos hdemand

/-- What is true of the architecture of a context, of a demanded one, and of those in the table is
true of the one on which the context is placed. -/
theorem settle_snd_of (harch : P arch)
    (hdemand : ∀ demanded, m.arch = some demanded → P demanded)
    (htable : ∀ row ∈ t.table, P row.arch) : P (m.settle t os arch).2 := by
  rcases m.demand_cases with ⟨demanded, ho, ha⟩ | ⟨demanded, ho, ha⟩ | h
  · rw [settle_of_os ho ha]
    rcases t.supportedArch?_cases (m.settleOs os) arch with ⟨-, hsome⟩ | ⟨found, hvalid, hsome⟩
    · rw [hsome]
      exact harch
    · obtain ⟨row, hrow, -, rfl⟩ := Targets.isValid_iff.1 hvalid
      rw [hsome]
      exact htable row hrow
  · rw [settle_of_arch ho ha]
    exact hdemand demanded ha
  · rw [settle_of_isSome_eq h]
    exact settleArch_of harch hdemand

/-! ### The placed context -/

variable {c : Context}

@[simp] theorem place_os : (m.place t c).os = (m.settle t c.os c.arch).1 := rfl

@[simp] theorem place_arch : (m.place t c).arch = (m.settle t c.os c.arch).2 := rfl

theorem place_cgo : (m.place t c).cgo =
    (c.cgo && (((m.place t c).os = c.os && (m.place t c).arch = c.arch) ||
      t.supportsCgo (m.place t c).os (m.place t c).arch)) := rfl

@[simp] theorem place_compiler : (m.place t c).compiler = c.compiler := rfl

@[simp] theorem place_buildTags : (m.place t c).buildTags = c.buildTags := rfl

@[simp] theorem place_toolTags : (m.place t c).toolTags = c.toolTags := rfl

@[simp] theorem place_releaseTags : (m.place t c).releaseTags = c.releaseTags := rfl

@[simp] theorem place_hasTag (tag : String) : (m.place t c).hasTag tag = c.hasTag tag := rfl

theorem fits_place (m : Mandate) (t : Targets) (c : Context) :
    m.Fits t (m.place t c).os (m.place t c).arch :=
  m.fits_settle t c.os c.arch

/-- A context whose platform fits is left as it is. -/
theorem place_of_fits (h : m.Fits t c.os c.arch) : m.place t c = c := by
  rw [place, settle_of_fits h]
  simp [moveTo]

/-- A context with known names is placed on a platform with known names, if those of the table and
of the demand are. -/
theorem onKnownPlatform_place (hc : c.OnKnownPlatform)
    (hos : ∀ demanded, m.os = some demanded → isKnownOs demanded = true)
    (harch : ∀ demanded, m.arch = some demanded → isKnownArch demanded = true)
    (ht : t.KnownNames) : (m.place t c).OnKnownPlatform :=
  ⟨settle_fst_of (P := (isKnownOs · = true)) hc.os hos fun row hrow => (ht row hrow).1,
    settle_snd_of (P := (isKnownArch · = true)) hc.arch harch fun row hrow => (ht row hrow).2⟩

/-! ### What placing changes -/

/-- A demanded operating system is put in the place of one that is not allowed, whatever the
architecture. -/
theorem settle_fst (h : m.os ≠ none) : (m.settle t os arch).1 = m.settleOs os := by
  rcases m.demand_cases with ⟨demanded, ho, ha⟩ | ⟨demanded, ho, -⟩ | hboth
  · rw [settle_of_os ho ha]
  · exact absurd ho h
  · rw [settle_of_isSome_eq hboth]

theorem settle_snd (h : m.arch ≠ none) : (m.settle t os arch).2 = m.settleArch arch := by
  rcases m.demand_cases with ⟨demanded, -, ha⟩ | ⟨demanded, ho, ha⟩ | hboth
  · exact absurd ha h
  · rw [settle_of_arch ho ha, settleArch, ha, Option.getD_some]
  · rw [settle_of_isSome_eq hboth]

/-- An operating system that is not demanded is kept if nothing is, or if it goes with the demanded
architecture or the table has no row for that. -/
theorem settle_fst_of_free (ho : m.os = none)
    (h : m.arch = none ∨ t.isValid os (m.settle t os arch).2 = true ∨
      t.osesFor? (m.settle t os arch).2 = none) : (m.settle t os arch).1 = os := by
  cases ha : m.arch with
  | none =>
    rw [settle_of_isSome_eq (by rw [ho, ha])]
    exact settleOs_of_allowsOs (by simp [allowsOs, ho])
  | some demanded =>
    rw [settle_of_arch ho ha] at h ⊢
    rcases h with h | h | h
    · rw [ha] at h
      cases h
    · rw [Targets.supportedOs?_of_isValid h, Option.getD_some]
    · rw [Targets.supportedOs?, h, Option.getD_some]

/-- An architecture that is not demanded is kept if nothing is, or if it goes with the operating
system on which the context is placed or the table has no row for that. -/
theorem settle_snd_of_free (ha : m.arch = none)
    (h : m.os = none ∨ t.isValid (m.settle t os arch).1 arch = true ∨
      t.archesFor? (m.settle t os arch).1 = none) : (m.settle t os arch).2 = arch := by
  cases ho : m.os with
  | none =>
    rw [settle_of_isSome_eq (by rw [ho, ha])]
    exact settleArch_of_allowsArch (by simp [allowsArch, ha])
  | some demanded =>
    rw [settle_of_os ho ha] at h ⊢
    rcases h with h | h | h
    · rw [ho] at h
      cases h
    · rw [Targets.supportedArch?_of_isValid h, Option.getD_some]
    · rw [Targets.supportedArch?, h, Option.getD_some]

/-- The context `d` is `c` on a platform that fits, with no more changed than has to be. -/
structure Placed (m : Mandate) (t : Targets) (c d : Context) : Prop where
  fits : m.Fits t d.os d.arch
  os_of_allowed : m.os ≠ none → m.allowsOs c.os = true → d.os = c.os
  arch_of_allowed : m.arch ≠ none → m.allowsArch c.arch = true → d.arch = c.arch
  os_of_free : m.os = none →
    (m.arch = none ∨ t.isValid c.os d.arch = true ∨ t.osesFor? d.arch = none) → d.os = c.os
  arch_of_free : m.arch = none →
    (m.os = none ∨ t.isValid d.os c.arch = true ∨ t.archesFor? d.os = none) → d.arch = c.arch
  compiler : d.compiler = c.compiler
  buildTags : d.buildTags = c.buildTags
  toolTags : d.toolTags = c.toolTags
  releaseTags : d.releaseTags = c.releaseTags
  cgo : d.cgo =
    if (d.os ≠ c.os ∨ d.arch ≠ c.arch) ∧ t.supportsCgo d.os d.arch = false then false else c.cgo

/-- Cgo is disabled by a move onto a platform that does not support it, and by nothing else. -/
theorem moveTo_cgo : (moveTo t c os arch).cgo =
    if (os ≠ c.os ∨ arch ≠ c.arch) ∧ t.supportsCgo os arch = false then false else c.cgo := by
  unfold moveTo
  cases hsupported : t.supportsCgo os arch with
  | true => simp
  | false =>
    by_cases hos : os = c.os
    · by_cases harch : arch = c.arch <;> simp [hos, harch]
    · simp [hos]

/-- **Placing a context establishes what the file name demands, changes no more than it has to, and is
idempotent.** -/
theorem placed_place (m : Mandate) (t : Targets) (c : Context) :
    m.Placed t c (m.place t c) ∧ m.place t (m.place t c) = m.place t c := by
  have hplaced : m.Placed t c (m.place t c) := {
    fits := m.fits_place t c
    os_of_allowed := fun ho hallowed => (settle_fst ho).trans (settleOs_of_allowsOs hallowed)
    arch_of_allowed := fun ha hallowed => (settle_snd ha).trans (settleArch_of_allowsArch hallowed)
    os_of_free := settle_fst_of_free
    arch_of_free := settle_snd_of_free
    compiler := place_compiler
    buildTags := place_buildTags
    toolTags := place_toolTags
    releaseTags := place_releaseTags
    cgo := moveTo_cgo }
  exact ⟨hplaced, place_of_fits hplaced.fits⟩

end GoBuild.Source.Mandate
