import GoBuild.Proofs.Context.Tags
import GoBuild.Proofs.Text.Lines
import GoBuild.Source.FileName

/-!
# The grammar of file names

What a path says about the platform of its file, told without looking for it. The stem (`IsStem`) is
cut out of the path, one `_test` at its end is dropped (`IsBareStem`), and the names that it ends in
(`EndsIn`) are what is demanded (`Demands`). The parts that a stem falls into at its underscores are
those names (`endsIn_iff`), so what is found in them is what the grammar demands (`ofPath_eq_iff`).
-/

namespace GoBuild.Source.Mandate

/-- The stem is the part of the last component of the path that stands before its first point. -/
def IsStem (path stem : List Char) : Prop :=
  ∃ directory extension, path = directory ++ (stem ++ extension) ∧
    (∀ c ∈ directory.getLast?, isSeparator c = true) ∧
    (∀ c ∈ stem ++ extension, isSeparator c = false) ∧
    '.' ∉ stem ∧ ∀ c ∈ extension.head?, c = '.'

/-- The end of the names of tests. -/
def testMark : List Char := "_test".toList

/-- The bare stem of a path is its stem, without one `_test` if it ends so. -/
def IsBareStem (path bare : List Char) : Prop :=
  ∃ stem, IsStem path stem ∧ (stem = bare ++ testMark ∨ (bare = stem ∧ ¬ testMark <:+ stem))

/-- The stem ends in the names, each after an underscore. -/
def EndsIn (stem : List Char) (names : List String) : Prop :=
  ∃ front, stem = front ++ names.flatMap fun name => '_' :: name.toList

/-- What a bare stem demands: both names if it ends in both, else the one that it ends in. -/
inductive Demands (stem : List Char) : Mandate → Prop where
  | both {os arch : String} (hos : isKnownOs os = true) (harch : isKnownArch arch = true)
      (hend : EndsIn stem [os, arch]) : Demands stem { os := os, arch := arch }
  | os {name : String} (hos : isKnownOs name = true) (hend : EndsIn stem [name]) :
      Demands stem { os := name }
  | arch {name : String} (harch : isKnownArch name = true) (hend : EndsIn stem [name])
      (halone : ∀ os, isKnownOs os = true → ¬ EndsIn stem [os, name]) :
      Demands stem { arch := name }
  | nothing (hend : ∀ name, isKnownOs name = true ∨ isKnownArch name = true →
      ¬ EndsIn stem [name]) : Demands stem {}

/-! ### Names that can be demanded -/

theorem isKnown_ofReversedSuffixes (parts : List String) :
    (∀ demanded, (ofReversedSuffixes parts).os = some demanded → isKnownOs demanded = true) ∧
      ∀ demanded, (ofReversedSuffixes parts).arch = some demanded → isKnownArch demanded = true := by
  unfold ofReversedSuffixes
  repeat' split
  all_goals simp_all

/-- A file name demands an operating system only by its known name. -/
theorem isKnownOs_of_ofPath {path demanded : String} (h : (ofPath path).os = some demanded) :
    isKnownOs demanded = true :=
  (isKnown_ofReversedSuffixes _).1 demanded h

/-- A file name demands an architecture only by its known name. -/
theorem isKnownArch_of_ofPath {path demanded : String} (h : (ofPath path).arch = some demanded) :
    isKnownArch demanded = true :=
  (isKnown_ofReversedSuffixes _).2 demanded h

/-! ### Stems -/

theorem lastComponent_eq_iff {path name : List Char} :
    (path.reverse.takeWhile fun c => !isSeparator c).reverse = name ↔
      ∃ directory, path = directory ++ name ∧ (∀ c ∈ directory.getLast?, isSeparator c = true) ∧
        ∀ c ∈ name, isSeparator c = false := by
  rw [List.reverse_eq_iff, Text.takeWhile_eq_iff]
  constructor
  · rintro ⟨rest, hpath, hname, hrest⟩
    refine ⟨rest.reverse, ?_, ?_, ?_⟩
    · rw [← List.reverse_inj, hpath, List.reverse_append, List.reverse_reverse]
    · simpa [List.getLast?_reverse] using hrest
    · simpa using hname
  · rintro ⟨directory, rfl, hdirectory, hname⟩
    refine ⟨directory.reverse, List.reverse_append, ?_, ?_⟩
    · simpa using hname
    · simpa [List.head?_reverse] using hdirectory

theorem isStem_iff {path s : List Char} : IsStem path s ↔ stem path = s := by
  rw [stem, Text.takeWhile_eq_iff]
  constructor
  · rintro ⟨directory, extension, hpath, hdirectory, hname, hpoint, hextension⟩
    refine ⟨extension, lastComponent_eq_iff.2 ⟨directory, hpath, hdirectory, hname⟩, ?_, ?_⟩
    · intro c hc
      exact decide_eq_true fun heq => hpoint (heq ▸ hc)
    · simpa using hextension
  · rintro ⟨extension, hname, hpoint, hextension⟩
    obtain ⟨directory, hpath, hdirectory, hfree⟩ := lastComponent_eq_iff.1 hname
    refine ⟨directory, extension, hpath, hdirectory, hfree, ?_, by simpa using hextension⟩
    intro hc
    simpa using hpoint '.' hc

theorem exists_isBareStem (path : List Char) : ∃ bare, IsBareStem path bare := by
  by_cases htest : testMark <:+ stem path
  · obtain ⟨bare, hbare⟩ := htest
    exact ⟨bare, stem path, isStem_iff.2 rfl, .inl hbare.symm⟩
  · exact ⟨stem path, stem path, isStem_iff.2 rfl, .inr ⟨rfl, htest⟩⟩

/-! ### Parts between underscores -/

/-- The parts between underscores that follow the first underscore of a stem. -/
def parts (stem : List Char) : List String := ((stem.splitOn '_').drop 1).map String.ofList

theorem parts_append_name {name : String} (hname : '_' ∉ name.toList) (front : List Char) :
    parts (front ++ '_' :: name.toList) = parts front ++ [name] := by
  have hfirst : 1 ≤ (front.splitOn '_').length :=
    List.length_pos_iff.2 (List.splitOn_ne_nil _ _)
  rw [parts, List.splitOn_append_cons_self, List.splitOn_eq_singleton hname,
    List.drop_append_of_le_length hfirst, List.map_append, List.map_singleton, String.ofList_toList]
  rfl

theorem parts_append_names {names : List String} (h : ∀ name ∈ names, '_' ∉ name.toList)
    (front : List Char) :
    parts (front ++ names.flatMap fun name => '_' :: name.toList) = parts front ++ names := by
  induction names generalizing front with
  | nil => simp
  | cons name names ih =>
    rw [List.forall_mem_cons] at h
    rw [List.flatMap_cons, ← List.append_assoc, ih h.2, parts_append_name h.1,
      List.append_assoc, List.singleton_append]

theorem intercalate_underscore (first : List Char) (more : List (List Char)) :
    ['_'].intercalate (first :: more) = first ++ more.flatMap ('_' :: ·) := by
  induction more generalizing first with
  | nil => simp
  | cons piece more ih => rw [List.intercalate_cons_cons, ih, List.flatMap_cons]; simp

/-- A stem is made of what stands before its first underscore and its parts. -/
theorem endsIn_parts (stem : List Char) : EndsIn stem (parts stem) := by
  obtain ⟨first, more, hsplit⟩ := List.exists_cons_of_ne_nil (List.splitOn_ne_nil '_' stem)
  refine ⟨first, ?_⟩
  calc stem = ['_'].intercalate (stem.splitOn '_') := (List.intercalate_splitOn '_').symm
    _ = first ++ more.flatMap ('_' :: ·) := by rw [hsplit, intercalate_underscore]
    _ = first ++ (parts stem).flatMap fun name => '_' :: name.toList := by
      simp [parts, hsplit, List.flatMap_map]

/-- A stem ends in names if they are its last parts. -/
theorem endsIn_iff {stem : List Char} {names : List String}
    (h : ∀ name ∈ names, '_' ∉ name.toList) : EndsIn stem names ↔ names <:+ parts stem := by
  constructor
  · rintro ⟨front, rfl⟩
    exact ⟨parts front, (parts_append_names h front).symm⟩
  · rintro ⟨before, hparts⟩
    obtain ⟨first, hstem⟩ := endsIn_parts stem
    refine ⟨first ++ before.flatMap fun name => '_' :: name.toList, ?_⟩
    rw [List.append_assoc, ← List.flatMap_append, hparts]
    exact hstem

theorem underscore_not_mem {name : String} (h : isKnownOs name = true ∨ isKnownArch name = true) :
    '_' ∉ name.toList := by
  have hall : ∀ name ∈ platformNames, '_' ∉ name.toList := by decide
  exact hall name (mem_platformNames_iff.2 h)

/-- The parts that are looked at are those of the bare stem. -/
theorem suffixes_eq_parts {path bare : List Char} (h : IsBareStem path bare) :
    suffixes (stem path) = parts bare := by
  obtain ⟨s, hstem, hbare⟩ := h
  obtain rfl := isStem_iff.1 hstem
  have htest : '_' ∉ "test".toList := by decide
  change (if (parts (stem path)).getLast? = some "test" then (parts (stem path)).dropLast
    else parts (stem path)) = parts bare
  rcases hbare with hbare | ⟨rfl, hno⟩
  · have hparts : parts (stem path) = parts bare ++ ["test"] := by
      rw [hbare]
      exact parts_append_name htest bare
    rw [hparts, List.getLast?_concat, if_pos rfl, List.dropLast_concat]
  · refine if_neg fun hlast => hno ?_
    obtain ⟨before, hparts⟩ := List.getLast?_eq_some_iff.1 hlast
    have hsuffix : ["test"] <:+ parts (stem path) := ⟨before, hparts.symm⟩
    obtain ⟨front, hfront⟩ := (endsIn_iff (List.forall_mem_singleton.2 htest)).2 hsuffix
    exact ⟨front, hfront.symm⟩

/-! ### Demands -/

section

variable {stem : List Char}

theorem endsIn_name_iff {name : String} (h : isKnownOs name = true ∨ isKnownArch name = true) :
    EndsIn stem [name] ↔ [name] <+: (parts stem).reverse := by
  rw [endsIn_iff (List.forall_mem_singleton.2 (underscore_not_mem h)), ← List.reverse_prefix]
  rfl

theorem endsIn_pair_iff {os arch : String} (hos : isKnownOs os = true)
    (harch : isKnownArch arch = true) :
    EndsIn stem [os, arch] ↔ [arch, os] <+: (parts stem).reverse := by
  have hnames : ∀ name ∈ [os, arch], '_' ∉ name.toList := by
    simp [underscore_not_mem (.inl hos), underscore_not_mem (.inr harch)]
  rw [endsIn_iff hnames, ← List.reverse_prefix]
  rfl

theorem exists_demands (stem : List Char) : ∃ m, Demands stem m := by
  by_cases hos : ∃ name, isKnownOs name = true ∧ EndsIn stem [name]
  · obtain ⟨name, hknown, hend⟩ := hos
    exact ⟨_, .os hknown hend⟩
  · by_cases harch : ∃ name, isKnownArch name = true ∧ EndsIn stem [name]
    · obtain ⟨name, hknown, hend⟩ := harch
      by_cases hboth : ∃ os, isKnownOs os = true ∧ EndsIn stem [os, name]
      · obtain ⟨os, hknownOs, hends⟩ := hboth
        exact ⟨_, .both hknownOs hknown hends⟩
      · exact ⟨_, .arch hknown hend fun os hknownOs hends => hboth ⟨os, hknownOs, hends⟩⟩
    · refine ⟨_, .nothing fun name hknown hend => ?_⟩
      rcases hknown with hknown | hknown
      · exact hos ⟨name, hknown, hend⟩
      · exact harch ⟨name, hknown, hend⟩

/-- What a stem demands is what is found in its last parts. -/
theorem Demands.eq_ofReversedSuffixes {m : Mandate} (h : Demands stem m) :
    ofReversedSuffixes (parts stem).reverse = m := by
  cases h with
  | both hos harch hend =>
    obtain ⟨before, hparts⟩ := (endsIn_pair_iff hos harch).1 hend
    rw [← hparts]
    simp [ofReversedSuffixes, hos, harch]
  | os hos hend =>
    obtain ⟨before, hparts⟩ := (endsIn_name_iff (.inl hos)).1 hend
    rw [← hparts]
    have harch := not_isKnownArch_of_isKnownOs hos
    cases before <;> simp [ofReversedSuffixes, hos, harch]
  | @arch name harch hend halone =>
    obtain ⟨before, hparts⟩ := (endsIn_name_iff (.inr harch)).1 hend
    have hos : ¬ isKnownOs name = true := fun hos => not_isKnownArch_of_isKnownOs hos harch
    rw [← hparts]
    cases before with
    | nil => simp [ofReversedSuffixes, hos, harch]
    | cons previous before =>
      have hprevious : ¬ isKnownOs previous = true := fun hprevious =>
        halone previous hprevious ((endsIn_pair_iff hprevious harch).2 ⟨before, hparts⟩)
      simp [ofReversedSuffixes, hos, harch, hprevious]
  | nothing hend =>
    cases hparts : (parts stem).reverse with
    | nil => rfl
    | cons last before =>
      have hlast : ¬ (isKnownOs last = true ∨ isKnownArch last = true) := fun hlast =>
        hend last hlast ((endsIn_name_iff hlast).2 ⟨before, hparts.symm⟩)
      rw [not_or] at hlast
      cases before <;> simp [ofReversedSuffixes, hlast.1, hlast.2]

end

/-- **The grammar of file names.** The platform that a path demands is the one that its bare stem
demands by the names it ends in. -/
theorem ofPath_eq_iff {path : String} {m : Mandate} :
    ofPath path = m ↔ ∃ bare, IsBareStem path.toList bare ∧ Demands bare m := by
  have hdemand : ∀ {bare}, IsBareStem path.toList bare →
      ofPath path = ofReversedSuffixes (parts bare).reverse := fun hbare => by
    rw [ofPath, suffixes_eq_parts hbare]
  constructor
  · rintro rfl
    obtain ⟨bare, hbare⟩ := exists_isBareStem path.toList
    obtain ⟨m, hdemands⟩ := exists_demands bare
    have hm : ofPath path = m := by rw [hdemand hbare, hdemands.eq_ofReversedSuffixes]
    exact ⟨bare, hbare, hm ▸ hdemands⟩
  · rintro ⟨bare, hbare, hdemands⟩
    rw [hdemand hbare, hdemands.eq_ofReversedSuffixes]

/-- A name before the first underscore demands nothing. -/
example : ofPath "src/linux_amd64_test.pb.go" = { arch := "amd64" } := by decide

end GoBuild.Source.Mandate

