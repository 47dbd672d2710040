/-!
# Sets of tags

A set of tags is kept as the list of its members in increasing order of their code points, each
once. The order is part of the type, so two sets with the same members are equal (`TagSet.ext`), and
the list is the form in which a set is shown. Membership after each operation is said by one lemma.
-/

namespace GoBuild

/-- A finite set of tags. -/
structure TagSet where
  toList : List String
  sorted : toList.Pairwise (· < ·)

namespace TagSet

instance : Membership String TagSet := ⟨fun s t => t ∈ s.toList⟩

theorem mem_iff {t : String} {s : TagSet} : t ∈ s ↔ t ∈ s.toList := Iff.rfl

instance (t : String) (s : TagSet) : Decidable (t ∈ s) :=
  inferInstanceAs (Decidable (t ∈ s.toList))

theorem toList_injective {s u : TagSet} (h : s.toList = u.toList) : s = u := by
  cases s; cases u; cases h; rfl

instance : DecidableEq TagSet := fun s u =>
  decidable_of_iff (s.toList = u.toList) ⟨toList_injective, fun h => h ▸ rfl⟩

/-- The set holds the tag. -/
def contains (s : TagSet) (t : String) : Bool := decide (t ∈ s)

@[simp] theorem contains_iff {s : TagSet} {t : String} : s.contains t = true ↔ t ∈ s := by
  simp [contains]

/-- The set without members. -/
def empty : TagSet := ⟨[], .nil⟩

instance : Inhabited TagSet := ⟨empty⟩

@[simp] theorem not_mem_empty (t : String) : t ∉ empty := List.not_mem_nil

/-- Puts a tag into an increasing list at its place, unless it is there. -/
def insertSorted (t : String) : List String → List String
  | [] => [t]
  | x :: xs => if t < x then t :: x :: xs else if t = x then x :: xs else x :: insertSorted t xs

theorem mem_insertSorted {a t : String} {xs : List String} :
    a ∈ insertSorted t xs ↔ a = t ∨ a ∈ xs := by
  induction xs with
  | nil => simp [insertSorted]
  | cons x xs ih =>
    rw [insertSorted]
    split
    · simp
    · split
      · rename_i h; subst h; simp
      · simp only [List.mem_cons, ih]
        exact or_left_comm

theorem lt_of_not_lt_of_ne {a b : String} (h : ¬a < b) (hne : a ≠ b) : b < a :=
  Classical.byContradiction fun h' =>
    hne (String.le_antisymm (String.not_lt.1 h') (String.not_lt.1 h))

theorem sorted_insertSorted {t : String} {xs : List String} (h : xs.Pairwise (· < ·)) :
    (insertSorted t xs).Pairwise (· < ·) := by
  induction xs with
  | nil => simp [insertSorted]
  | cons x xs ih =>
    have hx := (List.pairwise_cons.1 h).1
    rw [insertSorted]
    split
    · rename_i htx
      refine List.pairwise_cons.2 ⟨fun a ha => ?_, h⟩
      rcases List.mem_cons.1 ha with rfl | ha
      · exact htx
      · exact String.lt_trans htx (hx a ha)
    · split
      · exact h
      · rename_i htx hne
        refine List.pairwise_cons.2 ⟨fun a ha => ?_, ih (List.pairwise_cons.1 h).2⟩
        rcases mem_insertSorted.1 ha with rfl | ha
        · exact lt_of_not_lt_of_ne htx hne
        · exact hx a ha

/-- The set with the tag. -/
def insert (s : TagSet) (t : String) : TagSet :=
  ⟨insertSorted t s.toList, sorted_insertSorted s.sorted⟩

@[simp] theorem mem_insert {s : TagSet} {a t : String} : a ∈ s.insert t ↔ a = t ∨ a ∈ s :=
  mem_insertSorted

/-- The set without the tag. -/
def erase (s : TagSet) (t : String) : TagSet :=
  ⟨s.toList.filter (· ≠ t), s.sorted.filter _⟩

@[simp] theorem mem_erase {s : TagSet} {a t : String} : a ∈ s.erase t ↔ a ∈ s ∧ a ≠ t := by
  simp [erase, mem_iff]

/-- The set in which the tag is a member exactly if `on`. -/
def set (s : TagSet) (t : String) (on : Bool) : TagSet := if on then s.insert t else s.erase t

theorem mem_set {s : TagSet} {a t : String} {on : Bool} :
    a ∈ s.set t on ↔ if a = t then on = true else a ∈ s := by
  cases on <;> by_cases h : a = t <;> simp [set, h]

/-- The set of the members of a list. -/
def ofList (tags : List String) : TagSet := tags.foldr (fun t s => s.insert t) empty

@[simp] theorem mem_ofList {a : String} {tags : List String} : a ∈ ofList tags ↔ a ∈ tags := by
  induction tags with
  | nil => simp [ofList]
  | cons t tags ih =>
    rw [ofList, List.foldr_cons, mem_insert, List.mem_cons]
    exact or_congr_right ih

/-- Two increasing lists with the same members are the same list. -/
theorem eq_of_sorted_of_mem_iff {xs ys : List String} (hx : xs.Pairwise (· < ·))
    (hy : ys.Pairwise (· < ·)) (h : ∀ a, a ∈ xs ↔ a ∈ ys) : xs = ys := by
  induction xs generalizing ys with
  | nil =>
    cases ys with
    | nil => rfl
    | cons y ys => simpa using h y
  | cons x xs ih =>
    cases ys with
    | nil => simpa using h x
    | cons y ys =>
      have hx' := List.pairwise_cons.1 hx
      have hy' := List.pairwise_cons.1 hy
      have hxy : x = y := by
        rcases List.mem_cons.1 ((h x).1 (by simp)) with e | hmem
        · exact e
        · rcases List.mem_cons.1 ((h y).2 (by simp)) with e | hmem'
          · exact e.symm
          · exact absurd (String.lt_trans (hx'.1 y hmem') (hy'.1 x hmem)) (String.lt_irrefl x)
      subst hxy
      congr 1
      refine ih hx'.2 hy'.2 fun a => ⟨fun ha => ?_, fun ha => ?_⟩
      · rcases List.mem_cons.1 ((h a).1 (List.mem_cons_of_mem _ ha)) with e | hm
        · subst e; exact absurd (hx'.1 a ha) (String.lt_irrefl a)
        · exact hm
      · rcases List.mem_cons.1 ((h a).2 (List.mem_cons_of_mem _ ha)) with e | hm
        · subst e; exact absurd (hy'.1 a ha) (String.lt_irrefl a)
        · exact hm

/-- A set is known by its members. -/
theorem ext {s u : TagSet} (h : ∀ a, a ∈ s ↔ a ∈ u) : s = u :=
  toList_injective (eq_of_sorted_of_mem_iff s.sorted u.sorted h)

end TagSet

end GoBuild
