import GoBuild.Proofs.Platform.Targets

/-!
# The answers about a table are consistent

All that is asked of the targets agrees with the rows of their table and with each other
(`Targets.Consistent`), whatever the table: rows may be repeated, contradict each other on cgo, and
have empty names. The values of the rows are added one by one, each unless it is there yet
(`Listed.addValue`), so each is there once and in the order of the first rows
(`listed_valuesOf`). As the orders of preference cover the table, the value that completes a pair is
always found (`Completes`).
-/

namespace GoBuild

/-! ### Values in the order of their first rows -/

section Rows

variable {α : Type} {chosen : α → Bool} {value : α → String} {rows : List α} {names : List String}
  {row : α} {name : String}

theorem mem_addValue : name ∈ addValue chosen value names row ↔
    name ∈ names ∨ (chosen row = true ∧ value row = name) := by
  unfold addValue
  split
  · rename_i hnew
    simp [hnew.1, eq_comm]
  · rename_i hold
    refine ⟨Or.inl, fun h => h.elim id fun hrow => ?_⟩
    obtain ⟨hchosen, rfl⟩ := hrow
    exact Classical.byContradiction fun hnot => hold ⟨hchosen, hnot⟩

/-- The place of the first chosen row with the value. -/
def firstRow (chosen : α → Bool) (value : α → String) (rows : List α) (name : String) : Nat :=
  rows.findIdx fun row => chosen row && value row = name

theorem firstRow_lt_length_iff : firstRow chosen value rows name < rows.length ↔
    ∃ row ∈ rows, chosen row = true ∧ value row = name := by
  simp [firstRow, List.findIdx_lt_length]

/-- More rows do not change the place of a value that is there. -/
theorem firstRow_concat (h : firstRow chosen value rows name < rows.length) :
    firstRow chosen value (rows ++ [row]) name = firstRow chosen value rows name := by
  unfold firstRow at h ⊢
  rw [List.findIdx_append, if_pos h]

theorem firstRow_concat_of_new (h : ¬ firstRow chosen value rows name < rows.length)
    (hchosen : chosen row = true) (hvalue : value row = name) :
    firstRow chosen value (rows ++ [row]) name = rows.length := by
  unfold firstRow at h ⊢
  rw [List.findIdx_append, if_neg h, List.findIdx_singleton]
  simp [hchosen, hvalue]

/-- The names are the values of the chosen rows, in the order of the first row of each. -/
structure Listed (chosen : α → Bool) (value : α → String) (rows : List α) (names : List String) :
    Prop where
  mem_iff : ∀ name, name ∈ names ↔ ∃ row ∈ rows, chosen row = true ∧ value row = name
  ordered : names.Pairwise fun a b => firstRow chosen value rows a < firstRow chosen value rows b

theorem Listed.nodup (h : Listed chosen value rows names) : names.Nodup :=
  h.ordered.imp fun hlt heq => absurd (heq ▸ hlt) (Nat.lt_irrefl _)

theorem Listed.firstRow_lt (h : Listed chosen value rows names) (hname : name ∈ names) :
    firstRow chosen value rows name < rows.length :=
  firstRow_lt_length_iff.2 ((h.mem_iff name).1 hname)

theorem Listed.ordered_concat (h : Listed chosen value rows names) (row : α) :
    names.Pairwise fun a b =>
      firstRow chosen value (rows ++ [row]) a < firstRow chosen value (rows ++ [row]) b := by
  refine h.ordered.imp_of_mem fun ha hb hlt => ?_
  rwa [firstRow_concat (h.firstRow_lt ha), firstRow_concat (h.firstRow_lt hb)]

/-- One more row keeps the values listed. -/
theorem Listed.addValue (h : Listed chosen value rows names) (row : α) :
    Listed chosen value (rows ++ [row]) (addValue chosen value names row) := by
  constructor
  · intro name
    rw [mem_addValue, h.mem_iff]
    simp [or_and_right, exists_or]
  · unfold GoBuild.addValue
    split
    · rename_i hnew
      have hlast : firstRow chosen value (rows ++ [row]) (value row) = rows.length := by
        refine firstRow_concat_of_new (fun hlt => hnew.2 ?_) hnew.1 rfl
        exact (h.mem_iff _).2 (firstRow_lt_length_iff.1 hlt)
      refine List.pairwise_append.2 ⟨h.ordered_concat row, List.pairwise_singleton _ _, ?_⟩
      intro a ha b hb
      rw [List.mem_singleton.1 hb, hlast, firstRow_concat (h.firstRow_lt ha)]
      exact h.firstRow_lt ha
    · exact h.ordered_concat row

theorem listed_valuesOf (chosen : α → Bool) (value : α → String) (rows : List α) :
    Listed chosen value rows (valuesOf chosen value rows) := by
  induction rows using List.reverseRecOn with
  | nil => exact ⟨by simp [valuesOf], List.Pairwise.nil⟩
  | append_singleton rows row ih =>
    rw [valuesOf_concat]
    exact ih.addValue row

end Rows

namespace Targets

variable {t : Targets} {os arch current name : String} {valid preferred : List String}

theorem listed_of_archesFor? (h : t.archesFor? os = some valid) :
    valid ≠ [] ∧ Listed (fun row : Platform => row.os = os) (·.arch) t.table valid := by
  obtain ⟨rfl, hne⟩ := archesFor?_eq_some_iff.1 h
  exact ⟨hne, listed_valuesOf _ _ t.table⟩

theorem listed_of_osesFor? (h : t.osesFor? arch = some valid) :
    valid ≠ [] ∧ Listed (fun row : Platform => row.arch = arch) (·.os) t.table valid := by
  obtain ⟨rfl, hne⟩ := osesFor?_eq_some_iff.1 h
  exact ⟨hne, listed_valuesOf _ _ t.table⟩

/-! ### Orders of preference -/

/-- The names to try: none is empty, each is there once, that of the host comes first, and all of the
table are there. -/
structure IsPreference (host : String) (tableNames preferred : List String) : Prop where
  nodup : preferred.Nodup
  ne_empty : "" ∉ preferred
  head : host ≠ "" → preferred.head? = some host
  covers : ∀ name ∈ tableNames, name ≠ "" → name ∈ preferred

theorem isPreference_distinctNames (host : String) (first tableNames : List String) :
    IsPreference host tableNames (distinctNames (host :: (first ++ tableNames))) where
  nodup := by
    have hlisted :=
      listed_valuesOf (fun name : String => name ≠ "") id (host :: (first ++ tableNames))
    rw [valuesOf, List.map_id] at hlisted
    exact hlisted.nodup
  ne_empty := fun hmem => (mem_distinctNames.1 hmem).2 rfl
  head := fun hhost => by
    rw [distinctNames, List.filter_cons_of_pos (by simpa using hhost), List.eraseDups_cons]
    rfl
  covers := fun name hmem hname => mem_distinctNames.2 ⟨by simp [hmem], hname⟩

/-! ### Completing a pair -/

/-- The name completes a pair of which one half is settled; `valid?` are the values that go with that,
if the table has rows for it. -/
inductive Completes (valid? : Option (List String)) (preferred : List String) (current : String) :
    String → Prop where
  /-- The current name is kept if the table has no row for the settled half. -/
  | unlisted (hnone : valid? = none) : Completes valid? preferred current current
  /-- The current name is kept if it goes with the settled half. -/
  | kept {valid : List String} (hvalid : valid? = some valid) (hmem : current ∈ valid) :
    Completes valid? preferred current current
  /-- Else the first in the order of preference is taken that goes with it. -/
  | preferred {valid before after : List String} {name : String} (hvalid : valid? = some valid)
    (hcurrent : current ∉ valid) (hsplit : preferred = before ++ name :: after)
    (hmem : name ∈ valid) (hfirst : ∀ other ∈ before, other ∉ valid) :
    Completes valid? preferred current name
  /-- Only if none of those that go with it is to be tried, the value of the first row is taken; then
  there is no other value than the empty name. -/
  | unnamed (hvalid : valid? = some [""]) (hcurrent : current ≠ "") :
    Completes valid? preferred current ""

theorem Completes.complete?_eq (hempty : "" ∉ preferred)
    (h : Completes (some valid) preferred current name) :
    complete? valid current preferred = some name := by
  cases h with
  | unlisted hnone => cases hnone
  | kept hvalid hmem =>
    cases hvalid
    exact complete?_of_mem hmem
  | preferred hvalid hcurrent hsplit hmem hfirst =>
    cases hvalid
    have hfind : List.find? valid.contains preferred = some name := by
      refine List.find?_eq_some_iff_append.2 ⟨List.contains_iff_mem.2 hmem, _, _, hsplit, ?_⟩
      intro other hother
      simpa using hfirst other hother
    rw [complete?, if_neg (by simpa using hcurrent), hfind]
    rfl
  | unnamed hvalid hcurrent =>
    cases hvalid
    have hfind : List.find? [""].contains preferred = none := by
      refine List.find?_eq_none.2 fun other hother => ?_
      rintro hcontains
      rw [List.mem_singleton.1 (List.contains_iff_mem.1 hcontains)] at hother
      exact hempty hother
    rw [complete?, if_neg (by simpa using hcurrent), hfind]
    rfl

/-- If the order of preference has none of the values, then there is none but the empty name. -/
theorem eq_singleton_of_find?_eq_none (hne : valid ≠ []) (hnodup : valid.Nodup)
    (hcovers : ∀ other ∈ valid, other ≠ "" → other ∈ preferred)
    (h : preferred.find? valid.contains = none) : valid = [""] := by
  have hall : ∀ other ∈ valid, other = "" := by
    intro other hother
    refine Classical.byContradiction fun hname => ?_
    exact List.find?_eq_none.1 h other (hcovers other hother hname) (List.contains_iff_mem.2 hother)
  match valid with
  | [] => exact absurd rfl hne
  | [first] => rw [hall first List.mem_cons_self]
  | first :: second :: rest =>
    have hsame : first = second := (hall first (by simp)).trans (hall second (by simp)).symm
    exact absurd (by simp [hsame]) (List.nodup_cons.1 hnodup).1

theorem completes_of_complete? (hne : valid ≠ []) (hnodup : valid.Nodup)
    (hcovers : ∀ other ∈ valid, other ≠ "" → other ∈ preferred)
    (h : complete? valid current preferred = some name) :
    Completes (some valid) preferred current name := by
  by_cases hcurrent : current ∈ valid
  · rw [complete?_of_mem hcurrent] at h
    cases h
    exact .kept rfl hcurrent
  · rw [complete?, if_neg (by simpa using hcurrent)] at h
    cases hfind : preferred.find? valid.contains with
    | some found =>
      rw [hfind] at h
      cases h
      obtain ⟨hmem, before, after, hsplit, hfirst⟩ := List.find?_eq_some_iff_append.1 hfind
      refine .preferred rfl hcurrent hsplit (List.contains_iff_mem.1 hmem) fun other hother => ?_
      simpa using hfirst other hother
    | none =>
      obtain rfl := eq_singleton_of_find?_eq_none hne hnodup hcovers hfind
      rw [hfind] at h
      cases h
      exact .unnamed rfl (by simpa using hcurrent)

theorem completes_none_iff : Completes none preferred current name ↔ current = name := by
  constructor
  · intro h
    cases h with
    | unlisted => rfl
    | kept hvalid => cases hvalid
    | preferred hvalid => cases hvalid
    | unnamed hvalid => cases hvalid
  · rintro rfl
    exact .unlisted rfl

/-- If the values that go with the settled half are listed from the rows of a table that the order of
preference covers, then the choice is as `Completes` says. -/
theorem completion_eq_some_iff {chosen : Platform → Bool} {value : Platform → String}
    {table : List Platform} {host : String} {valid? : Option (List String)}
    (hlisted : ∀ valid, valid? = some valid → valid ≠ [] ∧ Listed chosen value table valid)
    (hpreference : IsPreference host (table.map value) preferred) :
    (valid?.elim (some current) fun valid => complete? valid current preferred) = some name ↔
      Completes valid? preferred current name := by
  cases valid? with
  | none => exact Option.some_inj.trans completes_none_iff.symm
  | some valid =>
    obtain ⟨hne, hvalid⟩ := hlisted valid rfl
    have hcovers : ∀ other ∈ valid, other ≠ "" → other ∈ preferred := by
      intro other hmem hname
      obtain ⟨row, hrow, -, rfl⟩ := (hvalid.mem_iff other).1 hmem
      exact hpreference.covers _ (List.mem_map_of_mem hrow) hname
    exact ⟨completes_of_complete? hne hvalid.nodup hcovers,
      Completes.complete?_eq hpreference.ne_empty⟩

theorem supportedArch?_eq_elim : t.supportedArch? os current =
    (t.archesFor? os).elim (some current) fun valid =>
      complete? valid current t.preferredArches := by
  unfold supportedArch?
  cases t.archesFor? os <;> rfl

theorem supportedOs?_eq_elim : t.supportedOs? arch current =
    (t.osesFor? arch).elim (some current) fun valid =>
      complete? valid current t.preferredOses := by
  unfold supportedOs?
  cases t.osesFor? arch <;> rfl

theorem supportedArch?_ne_none (t : Targets) (os current : String) :
    t.supportedArch? os current ≠ none := by
  rcases t.supportedArch?_cases os current with ⟨-, h⟩ | ⟨_, -, h⟩
  · simp [h]
  · simp [h]

theorem supportedOs?_ne_none (t : Targets) (arch current : String) :
    t.supportedOs? arch current ≠ none := by
  rcases t.supportedOs?_cases arch current with ⟨-, h⟩ | ⟨_, -, h⟩
  · simp [h]
  · simp [h]

/-! ### All answers together -/

/-- What is asked of the targets is answered by the rows of their table, in their order, and by the
orders of preference. -/
structure Consistent (t : Targets) : Prop where
  mem_arches : ∀ os arch, (∃ valid, t.archesFor? os = some valid ∧ arch ∈ valid) ↔
    ∃ row ∈ t.table, row.os = os ∧ row.arch = arch
  mem_oses : ∀ os arch, (∃ valid, t.osesFor? arch = some valid ∧ os ∈ valid) ↔
    ∃ row ∈ t.table, row.os = os ∧ row.arch = arch
  valid : ∀ os arch, t.isValid os arch = true ↔ ∃ row ∈ t.table, row.os = os ∧ row.arch = arch
  cgo : ∀ os arch, t.supportsCgo os arch = true ↔
    ∃ row ∈ t.table, row.os = os ∧ row.arch = arch ∧ row.cgo = true
  arches : ∀ os valid, t.archesFor? os = some valid → valid ≠ [] ∧ valid.Nodup ∧
    Listed (fun row : Platform => row.os = os) (·.arch) t.table valid
  oses : ∀ arch valid, t.osesFor? arch = some valid → valid ≠ [] ∧ valid.Nodup ∧
    Listed (fun row : Platform => row.arch = arch) (·.os) t.table valid
  preferredOses : IsPreference t.host.os (t.table.map (·.os)) t.preferredOses
  preferredArches : IsPreference t.host.arch (t.table.map (·.arch)) t.preferredArches
  supportedArch_ne_none : ∀ os current, t.supportedArch? os current ≠ none
  supportedOs_ne_none : ∀ arch current, t.supportedOs? arch current ≠ none
  supportedArch : ∀ os current name, t.supportedArch? os current = some name ↔
    Completes (t.archesFor? os) t.preferredArches current name
  supportedOs : ∀ arch current name, t.supportedOs? arch current = some name ↔
    Completes (t.osesFor? arch) t.preferredOses current name

/-- A value is among those for one half of a pair exactly if the pair is valid. -/
theorem exists_mem_archesFor?_iff :
    (∃ valid, t.archesFor? os = some valid ∧ arch ∈ valid) ↔ t.isValid os arch = true := by
  constructor
  · rintro ⟨valid, hvalid, hmem⟩
    exact (mem_archesFor? hvalid).1 hmem
  · intro h
    obtain ⟨valid, hvalid⟩ := Option.ne_none_iff_exists'.1 (archesFor?_ne_none h)
    exact ⟨valid, hvalid, (mem_archesFor? hvalid).2 h⟩

theorem exists_mem_osesFor?_iff :
    (∃ valid, t.osesFor? arch = some valid ∧ os ∈ valid) ↔ t.isValid os arch = true := by
  constructor
  · rintro ⟨valid, hvalid, hmem⟩
    exact (mem_osesFor? hvalid).1 hmem
  · intro h
    obtain ⟨valid, hvalid⟩ := Option.ne_none_iff_exists'.1 (osesFor?_ne_none h)
    exact ⟨valid, hvalid, (mem_osesFor? hvalid).2 h⟩

theorem isPreference_preferredOses (t : Targets) :
    IsPreference t.host.os (t.table.map (·.os)) t.preferredOses :=
  isPreference_distinctNames t.host.os firstOses (t.table.map (·.os))

theorem isPreference_preferredArches (t : Targets) :
    IsPreference t.host.arch (t.table.map (·.arch)) t.preferredArches :=
  isPreference_distinctNames t.host.arch firstArches (t.table.map (·.arch))

/-- **Whatever the table and the host, the answers about the targets are consistent.** -/
theorem consistent (t : Targets) : t.Consistent where
  mem_arches := fun _ _ => exists_mem_archesFor?_iff.trans isValid_iff
  mem_oses := fun _ _ => exists_mem_osesFor?_iff.trans isValid_iff
  valid := fun _ _ => isValid_iff
  cgo := fun _ _ => supportsCgo_iff
  arches := fun _ _ h =>
    have hlisted := listed_of_archesFor? h
    ⟨hlisted.1, hlisted.2.nodup, hlisted.2⟩
  oses := fun _ _ h =>
    have hlisted := listed_of_osesFor? h
    ⟨hlisted.1, hlisted.2.nodup, hlisted.2⟩
  preferredOses := t.isPreference_preferredOses
  preferredArches := t.isPreference_preferredArches
  supportedArch_ne_none := t.supportedArch?_ne_none
  supportedOs_ne_none := t.supportedOs?_ne_none
  supportedArch := fun os current name => by
    rw [supportedArch?_eq_elim]
    exact completion_eq_some_iff (fun _ => listed_of_archesFor?) t.isPreference_preferredArches
  supportedOs := fun arch current name => by
    rw [supportedOs?_eq_elim]
    exact completion_eq_some_iff (fun _ => listed_of_osesFor?) t.isPreference_preferredOses

/-- A table with an empty name, a repeated row and rows that contradict each other. -/
example :
    let t : Targets := ⟨[⟨"zos", "", false, false⟩, ⟨"linux", "arm", false, false⟩,
      ⟨"linux", "amd64", true, false⟩, ⟨"linux", "arm", true, false⟩], ⟨"linux", "mips", "gc"⟩⟩
    t.supportedArch? "zos" "mips" = some "" ∧ t.supportedArch? "linux" "mips" = some "amd64" ∧
      t.archesFor? "linux" = some ["arm", "amd64"] ∧ t.supportsCgo "linux" "arm" = true := by
  decide +kernel

end Targets

end GoBuild
