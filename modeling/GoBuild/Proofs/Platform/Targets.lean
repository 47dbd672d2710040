import GoBuild.Proofs.Platform.Index

/-!
# What the targets say about their table

The questions asked of the targets are answered by the rows of the table: the values that go with
one half of a pair are those of the valid pairs (`mem_archesFor?`, `mem_osesFor?`), and the value
that completes a pair is there, goes with the other half, and is the current one if that goes with it
(`supportedArch?_cases`, `supportedOs?_cases`).
-/

namespace GoBuild.Targets

variable {t : Targets} {os arch current : String}

/-! ### The values that go with one half of a pair -/

/-- The architectures that go with an operating system are those of its rows, and there are some. -/
theorem archesFor?_eq_some_iff {valid : List String} : t.archesFor? os = some valid ↔
    valuesOf (fun row : Platform => row.os = os) (·.arch) t.table = valid ∧ valid ≠ [] := by
  rw [archesFor?_eq, nonempty?_eq_some_iff]

/-- The operating systems that go with an architecture are those of its rows, and there are some. -/
theorem osesFor?_eq_some_iff {valid : List String} : t.osesFor? arch = some valid ↔
    valuesOf (fun row : Platform => row.arch = arch) (·.os) t.table = valid ∧ valid ≠ [] := by
  rw [osesFor?_eq, nonempty?_eq_some_iff]

theorem mem_archesFor? {valid : List String} (h : t.archesFor? os = some valid) :
    arch ∈ valid ↔ t.isValid os arch = true := by
  obtain ⟨rfl, -⟩ := archesFor?_eq_some_iff.1 h
  simp only [mem_valuesOf, isValid_iff, decide_eq_true_eq]

theorem mem_osesFor? {valid : List String} (h : t.osesFor? arch = some valid) :
    os ∈ valid ↔ t.isValid os arch = true := by
  obtain ⟨rfl, -⟩ := osesFor?_eq_some_iff.1 h
  simp only [mem_valuesOf, isValid_iff, decide_eq_true_eq]
  exact exists_congr fun row => and_congr_right fun _ => and_comm

theorem archesFor?_ne_none_iff : t.archesFor? os ≠ none ↔ ∃ row ∈ t.table, row.os = os := by
  rw [archesFor?_eq, nonempty?_valuesOf_ne_none_iff]
  simp only [decide_eq_true_eq]

theorem osesFor?_ne_none_iff : t.osesFor? arch ≠ none ↔ ∃ row ∈ t.table, row.arch = arch := by
  rw [osesFor?_eq, nonempty?_valuesOf_ne_none_iff]
  simp only [decide_eq_true_eq]

theorem archesFor?_ne_none (h : t.isValid os arch = true) : t.archesFor? os ≠ none := by
  obtain ⟨row, hrow, hos, -⟩ := isValid_iff.1 h
  exact archesFor?_ne_none_iff.2 ⟨row, hrow, hos⟩

theorem osesFor?_ne_none (h : t.isValid os arch = true) : t.osesFor? arch ≠ none := by
  obtain ⟨row, hrow, -, harch⟩ := isValid_iff.1 h
  exact osesFor?_ne_none_iff.2 ⟨row, hrow, harch⟩

/-! ### The order of preference -/

theorem mem_distinctNames {name : String} {names : List String} :
    name ∈ distinctNames names ↔ name ∈ names ∧ name ≠ "" := by
  simp [distinctNames, List.mem_eraseDups]

/-- The operating systems of the table are among those to try. -/
theorem mem_preferredOses (h : t.isValid os arch = true) (hos : os ≠ "") :
    os ∈ t.preferredOses := by
  obtain ⟨row, hrow, rfl, -⟩ := isValid_iff.1 h
  have hmem : row.os ∈ t.table.map (·.os) := List.mem_map_of_mem hrow
  exact mem_distinctNames.2 ⟨by simp [hmem], hos⟩

/-- The architectures of the table are among those to try. -/
theorem mem_preferredArches (h : t.isValid os arch = true) (harch : arch ≠ "") :
    arch ∈ t.preferredArches := by
  obtain ⟨row, hrow, -, rfl⟩ := isValid_iff.1 h
  have hmem : row.arch ∈ t.table.map (·.arch) := List.mem_map_of_mem hrow
  exact mem_distinctNames.2 ⟨by simp [hmem], harch⟩

/-! ### Completing a pair -/

theorem complete?_of_mem {valid preferred : List String} (h : current ∈ valid) :
    complete? valid current preferred = some current := by
  rw [complete?, if_pos (List.contains_iff_mem.2 h)]

/-- A value is found if there is one, and it is among the valid ones. -/
theorem exists_complete? {valid : List String} (h : valid ≠ []) (current : String)
    (preferred : List String) : ∃ name ∈ valid, complete? valid current preferred = some name := by
  by_cases hc : current ∈ valid
  · exact ⟨current, hc, complete?_of_mem hc⟩
  rw [complete?, if_neg (by simpa using hc)]
  cases hf : preferred.find? valid.contains with
  | some name => exact ⟨name, List.contains_iff_mem.1 (List.find?_some hf), Option.some_or⟩
  | none =>
    obtain ⟨name, rest, rfl⟩ := List.exists_cons_of_ne_nil h
    exact ⟨name, List.mem_cons_self, rfl⟩

/-- The architecture that completes a pair: the current one if the table has no row for the
operating system, else one that goes with it. -/
theorem supportedArch?_cases (t : Targets) (os current : String) :
    (t.archesFor? os = none ∧ t.supportedArch? os current = some current) ∨
      ∃ arch, t.isValid os arch = true ∧ t.supportedArch? os current = some arch := by
  cases h : t.archesFor? os with
  | none => exact Or.inl ⟨rfl, by rw [supportedArch?, h]⟩
  | some valid =>
    obtain ⟨arch, hmem, harch⟩ :=
      exists_complete? (archesFor?_eq_some_iff.1 h).2 current t.preferredArches
    exact Or.inr ⟨arch, (mem_archesFor? h).1 hmem, by rw [supportedArch?, h]; exact harch⟩

/-- The operating system that completes a pair: the current one if the table has no row for the
architecture, else one that goes with it. -/
theorem supportedOs?_cases (t : Targets) (arch current : String) :
    (t.osesFor? arch = none ∧ t.supportedOs? arch current = some current) ∨
      ∃ os, t.isValid os arch = true ∧ t.supportedOs? arch current = some os := by
  cases h : t.osesFor? arch with
  | none => exact Or.inl ⟨rfl, by rw [supportedOs?, h]⟩
  | some valid =>
    obtain ⟨os, hmem, hos⟩ :=
      exists_complete? (osesFor?_eq_some_iff.1 h).2 current t.preferredOses
    exact Or.inr ⟨os, (mem_osesFor? h).1 hmem, by rw [supportedOs?, h]; exact hos⟩

theorem supportedArch?_of_isValid (h : t.isValid os current = true) :
    t.supportedArch? os current = some current := by
  cases hv : t.archesFor? os with
  | none => exact absurd hv (archesFor?_ne_none h)
  | some valid => rw [supportedArch?, hv]; exact complete?_of_mem ((mem_archesFor? hv).2 h)

theorem supportedOs?_of_isValid (h : t.isValid current arch = true) :
    t.supportedOs? arch current = some current := by
  cases hv : t.osesFor? arch with
  | none => exact absurd hv (osesFor?_ne_none h)
  | some valid => rw [supportedOs?, hv]; exact complete?_of_mem ((mem_osesFor? hv).2 h)

/-! ### Tables with known names, and closed tables -/

/-- The names in the table are known. -/
def KnownNames (t : Targets) : Prop :=
  ∀ row ∈ t.table, isKnownOs row.os = true ∧ isKnownArch row.arch = true

theorem KnownNames.of_isValid (ht : t.KnownNames) (h : t.isValid os arch = true) :
    isKnownOs os = true ∧ isKnownArch arch = true := by
  obtain ⟨row, hrow, rfl, rfl⟩ := isValid_iff.1 h
  exact ht row hrow

theorem KnownNames.ne_of_isValid (ht : t.KnownNames) (h : t.isValid os arch = true) :
    os ≠ "" ∧ arch ≠ "" := by
  obtain ⟨hos, harch⟩ := ht.of_isValid h
  refine ⟨?_, ?_⟩
  · rintro rfl
    exact absurd hos (by decide)
  · rintro rfl
    exact absurd harch (by decide)

theorem knownNames_default (host : Host) : (default host).KnownNames := by
  have hall : ∀ row ∈ Platform.defaultTable,
      isKnownOs row.os = true ∧ isKnownArch row.arch = true := by decide
  exact hall

/-- No name in the table is empty, and the table has a row for every name to try. -/
structure Closed (t : Targets) : Prop where
  names_ne : ∀ row ∈ t.table, row.os ≠ "" ∧ row.arch ≠ ""
  oses : ∀ os ∈ t.preferredOses, ∃ row ∈ t.table, row.os = os
  arches : ∀ arch ∈ t.preferredArches, ∃ row ∈ t.table, row.arch = arch

theorem closed_builtin : builtin.Closed := ⟨by decide +kernel, by decide +kernel, by decide +kernel⟩

theorem Closed.archesFor?_ne_none (ht : t.Closed) (h : os ∈ t.preferredOses) :
    t.archesFor? os ≠ none :=
  archesFor?_ne_none_iff.2 (ht.oses os h)

theorem Closed.osesFor?_ne_none (ht : t.Closed) (h : arch ∈ t.preferredArches) :
    t.osesFor? arch ≠ none :=
  osesFor?_ne_none_iff.2 (ht.arches arch h)

theorem Closed.ne_of_isValid (ht : t.Closed) (h : t.isValid os arch = true) :
    os ≠ "" ∧ arch ≠ "" := by
  obtain ⟨row, hrow, rfl, rfl⟩ := isValid_iff.1 h
  exact ht.names_ne row hrow

end GoBuild.Targets
