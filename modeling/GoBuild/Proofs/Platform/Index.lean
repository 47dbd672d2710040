import Mathlib.Data.List.Induction
import GoBuild.Platform.Targets

/-!
# The index of a table

What is looked up in the index of a table is said by its rows. Lists of values grow row by row, by
values that are not there yet (`valuesOf_concat`), as the names under a key of the index do
(`lookup_addUnder`). So the names under a key are the values of the rows with that key, each once
(`lookup_foldl_addUnder`), and a pair is among those that support cgo exactly if a row with the pair
does (`mem_cgoPairs_foldl_addRow`).
-/

namespace GoBuild

/-! ### Values of the chosen rows -/

section Rows

variable {α : Type}

/-- The values of the chosen rows, each once. -/
def valuesOf (chosen : α → Bool) (value : α → String) (rows : List α) : List String :=
  ((rows.filter chosen).map value).eraseDups

/-- The values with that of one more row, put at the end unless it is there. -/
def addValue (chosen : α → Bool) (value : α → String) (names : List String) (row : α) :
    List String :=
  if chosen row = true ∧ value row ∉ names then names ++ [value row] else names

theorem mem_valuesOf {chosen : α → Bool} {value : α → String} {rows : List α} {name : String} :
    name ∈ valuesOf chosen value rows ↔ ∃ row ∈ rows, chosen row = true ∧ value row = name := by
  simp [valuesOf, List.mem_eraseDups, and_assoc]

theorem valuesOf_concat (chosen : α → Bool) (value : α → String) (rows : List α) (row : α) :
    valuesOf chosen value (rows ++ [row]) =
      addValue chosen value (valuesOf chosen value rows) row := by
  unfold valuesOf addValue
  rw [List.filter_append, List.map_append, List.eraseDups_append]
  cases hchosen : chosen row with
  | false => simp [hchosen, List.removeAll]
  | true =>
    by_cases hmem : value row ∈ (rows.filter chosen).map value
    · simp [hchosen, List.removeAll, List.mem_eraseDups, hmem]
    · simp [hchosen, List.removeAll, List.mem_eraseDups, List.eraseDups_cons, hmem]

theorem addValue_of_chosen {chosen : α → Bool} {row : α} (h : chosen row = true) (value : α → String)
    (names : List String) : addValue chosen value names row = addName names (value row) := by
  by_cases hmem : value row ∈ names <;> simp [addValue, addName, h, hmem]

theorem addValue_of_not_chosen {chosen : α → Bool} {row : α} (h : chosen row = false)
    (value : α → String) (names : List String) : addValue chosen value names row = names := by
  simp [addValue, h]

end Rows

/-! ### Names under keys -/

/-- The list, unless it is empty. -/
def nonempty? : List String → Option (List String)
  | [] => none
  | x :: xs => some (x :: xs)

theorem nonempty?_eq_some_iff {names valid : List String} :
    nonempty? names = some valid ↔ names = valid ∧ valid ≠ [] := by
  cases names with
  | nil => simp [nonempty?]
  | cons x xs =>
    simp only [nonempty?, Option.some.injEq, ne_eq]
    exact ⟨fun h => ⟨h, h ▸ List.cons_ne_nil x xs⟩, And.left⟩

theorem nonempty?_eq_none_iff {names : List String} : nonempty? names = none ↔ names = [] := by
  cases names <;> simp [nonempty?]

theorem getD_nonempty? (names : List String) : (nonempty? names).getD [] = names := by
  cases names <;> rfl

theorem nonempty?_valuesOf_ne_none_iff {α : Type} {chosen : α → Bool} {value : α → String}
    {rows : List α} :
    nonempty? (valuesOf chosen value rows) ≠ none ↔ ∃ row ∈ rows, chosen row = true := by
  rw [ne_eq, nonempty?_eq_none_iff, List.eq_nil_iff_forall_not_mem]
  simp [mem_valuesOf]

theorem addName_ne_nil (names : List String) (name : String) : addName names name ≠ [] := by
  unfold addName
  split
  · rename_i hmem
    exact List.ne_nil_of_mem hmem
  · simp

theorem lookup_addUnder (key name k : String) (lists : List (String × List String)) :
    (addUnder key name lists).lookup k =
      if k = key then some (addName ((lists.lookup key).getD []) name) else lists.lookup k := by
  induction lists with
  | nil =>
    by_cases h : k = key
    · simp [addUnder, addName, h]
    · simp [addUnder, List.lookup_cons, beq_false_of_ne h, h]
  | cons entry rest ih =>
    obtain ⟨first, names⟩ := entry
    by_cases hfirst : first = key
    · subst hfirst
      by_cases h : k = first
      · simp [addUnder, h]
      · simp [addUnder, List.lookup_cons, beq_false_of_ne h, h]
    · rw [addUnder, if_neg hfirst, List.lookup_cons, List.lookup_cons, List.lookup_cons, ih,
        beq_false_of_ne (Ne.symm hfirst)]
      by_cases h : k = key
      · simp [h, beq_false_of_ne (Ne.symm hfirst)]
      · simp [h]

/-- Under a key are the values of the rows with that key, if there are any. -/
theorem lookup_foldl_addUnder {α : Type} (key value : α → String) (rows : List α) (k : String) :
    (rows.foldl (fun lists row => addUnder (key row) (value row) lists) []).lookup k =
      nonempty? (valuesOf (fun row => key row = k) value rows) := by
  induction rows using List.reverseRecOn generalizing k with
  | nil => rfl
  | append_singleton rows row ih =>
    rw [List.foldl_append, List.foldl_cons, List.foldl_nil, lookup_addUnder, ih, ih, getD_nonempty?,
      valuesOf_concat]
    by_cases h : k = key row
    · subst h
      rw [if_pos rfl, addValue_of_chosen (by simp)]
      exact (nonempty?_eq_some_iff.2 ⟨rfl, addName_ne_nil _ _⟩).symm
    · rw [if_neg h, addValue_of_not_chosen (by simpa using Ne.symm h)]

/-! ### The index -/

namespace PlatformIndex

theorem arches_foldl_addRow (ix : PlatformIndex) (table : List Platform) :
    (table.foldl addRow ix).arches =
      table.foldl (fun lists row => addUnder row.os row.arch lists) ix.arches := by
  induction table generalizing ix with
  | nil => rfl
  | cons row table ih => exact ih (ix.addRow row)

theorem oses_foldl_addRow (ix : PlatformIndex) (table : List Platform) :
    (table.foldl addRow ix).oses =
      table.foldl (fun lists row => addUnder row.arch row.os lists) ix.oses := by
  induction table generalizing ix with
  | nil => rfl
  | cons row table ih => exact ih (ix.addRow row)

theorem mem_cgoPairs_addRow {ix : PlatformIndex} {row : Platform} {pair : String × String} :
    pair ∈ (ix.addRow row).cgoPairs ↔
      pair ∈ ix.cgoPairs ∨ ((row.os, row.arch) = pair ∧ row.cgo = true) := by
  cases hcgo : row.cgo with
  | false => simp [addRow, hcgo]
  | true => rw [addRow, if_pos hcgo, List.mem_insert_iff, or_comm, and_iff_left rfl, eq_comm]

theorem mem_cgoPairs_foldl_addRow {ix : PlatformIndex} {table : List Platform}
    {pair : String × String} : pair ∈ (table.foldl addRow ix).cgoPairs ↔
      pair ∈ ix.cgoPairs ∨ ∃ row ∈ table, (row.os, row.arch) = pair ∧ row.cgo = true := by
  induction table generalizing ix with
  | nil => simp
  | cons row table ih =>
    rw [List.foldl_cons, ih, mem_cgoPairs_addRow, or_assoc]
    simp only [List.mem_cons, or_and_right, exists_or, exists_eq_left]

end PlatformIndex

namespace Targets

variable {t : Targets} {os arch : String}

theorem archesFor?_eq (t : Targets) (os : String) :
    t.archesFor? os = nonempty? (valuesOf (fun row : Platform => row.os = os) (·.arch) t.table) := by
  rw [archesFor?, index, PlatformIndex.ofTable, PlatformIndex.arches_foldl_addRow]
  exact lookup_foldl_addUnder (·.os) (·.arch) t.table os

theorem osesFor?_eq (t : Targets) (arch : String) :
    t.osesFor? arch = nonempty? (valuesOf (fun row : Platform => row.arch = arch) (·.os) t.table) := by
  rw [osesFor?, index, PlatformIndex.ofTable, PlatformIndex.oses_foldl_addRow]
  exact lookup_foldl_addUnder (·.arch) (·.os) t.table arch

theorem isValid_iff :
    t.isValid os arch = true ↔ ∃ row ∈ t.table, row.os = os ∧ row.arch = arch := by
  have hmem : t.isValid os arch = true ↔
      arch ∈ valuesOf (fun row : Platform => row.os = os) (·.arch) t.table := by
    rw [isValid, archesFor?_eq]
    cases valuesOf (fun row : Platform => row.os = os) (·.arch) t.table <;> simp [nonempty?]
  rw [hmem, mem_valuesOf]
  simp only [decide_eq_true_eq]

theorem supportsCgo_iff : t.supportsCgo os arch = true ↔
    ∃ row ∈ t.table, row.os = os ∧ row.arch = arch ∧ row.cgo = true := by
  rw [supportsCgo, List.contains_iff_mem, index, PlatformIndex.ofTable,
    PlatformIndex.mem_cgoPairs_foldl_addRow]
  simp [and_assoc]

end Targets

end GoBuild
