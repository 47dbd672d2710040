import Mathlib.Tactic.Choose
import GoBuild.Proofs.CommandLine.Routes

/-!
# Walks in pre-order

What is relied on of a walk (`Walk.InPreorder`): it comes by a directory before it comes by its entries,
by these in the order of their names, and by nothing below an entry that it does not visit. The source
files among what such a walk comes by are those at the ends of the routes to list, in their order
(`Visits.exists_finds_root`). One such walk is `FileTree.preorder`.
-/

namespace GoBuild

open FileTree

/-! ### What is relied on -/

namespace Entry

/-- An entry of the directory that the entry is. -/
def child (e : Entry) (name : List UInt8) (tree : FileTree) : Entry :=
  ⟨join e.path name, name, e.depth + 1, tree⟩

/-- The entries of the directory that the entry is. -/
def children (e : Entry) : List Entry :=
  match e.tree with
  | .directory entries => entries.map fun x => e.child x.1 x.2
  | _ => []

end Entry

/-- From an entry on, a walk in pre-order that visits what `keep` allows comes by these. -/
inductive Visits (keep : Entry → Bool) : Entry → List Entry → Prop
  /-- Nothing, if the entry is not visited. -/
  | pruned {e : Entry} (h : keep e = false) : Visits keep e []
  /-- Else the entry itself, and what is below its own entries, in the order of their names. -/
  | entered {e : Entry} {children : List Entry} {visits : Entry → List Entry} (h : keep e = true)
    (all : children.Perm e.children) (sorted : children.Pairwise fun a b => a.name ≤ b.name)
    (below : ∀ c ∈ children, Visits keep c (visits c)) :
    Visits keep e (e :: children.flatMap visits)

/-- The walk of the directory at `path` can read all entries and is in pre-order, whatever is to be
visited. The name of the directory itself is left open. -/
def Walk.InPreorder (walk : Walk) (path : List UInt8) (tree : FileTree) : Prop :=
  ∀ keep, ∃ name entries,
    walk keep path tree = entries.map some ∧ Visits keep ⟨path, name, 0, tree⟩ entries

variable {e c : Entry} {entries : List (List UInt8 × FileTree)} {visited children : List Entry}
  {visits : Entry → List Entry} {keep : Entry → Bool}

theorem Entry.children_eq (htree : e.tree = directory entries) :
    e.children = entries.map fun x => e.child x.1 x.2 := by
  rw [children, htree]

theorem Entry.children_eq_nil (htree : e.tree.isDirectory = false) : e.children = [] := by
  unfold children
  cases h : e.tree with
  | directory entries =>
    rw [h] at htree
    cases htree
  | file | special => rfl

/-! ### The files that a scan finds -/

/-- The source files among what a walk comes by are those at the ends of the routes, which are those
that lead to files and are `kept`, in their order. -/
structure Finds (e : Entry) (kept : Route → Prop) (visited : List Entry) (routes : List Route) :
    Prop where
  found : visited.filterMap Entry.source? = routes.map (Route.found e.path)
  mem_iff : ∀ r, r ∈ routes ↔ Leads e.tree r ∧ kept r
  ordered : routes.Pairwise Route.Before

/-- The routes from the entries of a directory, from the directory on. -/
def routesUnder (routes : Entry → List Route) (children : List Entry) : List Route :=
  children.flatMap fun c => (routes c).map (Route.under c.name)

theorem mem_routesUnder_iff {routes : Entry → List Route} {r : Route} :
    r ∈ routesUnder routes children ↔ ∃ c ∈ children, ∃ s ∈ routes c, s.under c.name = r := by
  simp only [routesUnder, List.mem_flatMap, List.mem_map]

/-- The entries of a directory with different names come in strictly increasing order of names. -/
theorem pairwise_name_lt (hproper : (directory entries).Proper) (htree : e.tree = directory entries)
    (all : children.Perm e.children) (sorted : children.Pairwise fun a b => a.name ≤ b.name) :
    children.Pairwise fun a b => a.name < b.name := by
  cases hproper with
  | directory hdistinct _ _ =>
    have hnames : (e.children.map Entry.name).Nodup := by
      rw [Entry.children_eq htree, List.map_map]
      exact hdistinct
    have hdiffer : children.Pairwise fun a b => a.name ≠ b.name :=
      List.pairwise_map.1 ((all.map Entry.name).nodup_iff.2 hnames)
    refine (sorted.and hdiffer).imp fun {a b} hab => ?_
    exact List.not_le.1 fun hba => hab.2 (List.le_antisymm hab.1 hba)

/-- If the scan finds the files to list below each entry of a directory, then it finds those below the
directory. -/
theorem exists_finds_children (htree : e.tree = directory entries)
    (hproper : (directory entries).Proper) (all : children.Perm e.children)
    (sorted : children.Pairwise fun a b => a.name ≤ b.name)
    (hbelow : ∀ c ∈ children,
      ∃ routes, Finds c (fun r => Kept IsListed (c.name :: r.names)) (visits c) routes) :
    ∃ routes, Finds e (fun r => Kept IsListed r.names) (e :: children.flatMap visits) routes := by
  choose! routes hroutes using hbelow
  have hchild : ∀ c, c ∈ children ↔ ∃ x ∈ entries, e.child x.1 x.2 = c := by
    intro c
    rw [all.mem_iff, Entry.children_eq htree, List.mem_map]
  refine ⟨routesUnder routes children, ?_, ?_, ?_⟩
  -- The directory itself is no source file.
  · have hself : e.source? = none := by rw [Entry.source?, htree]
    rw [List.filterMap_cons_none hself, List.filterMap_flatMap, routesUnder, List.map_flatMap]
    refine congrArg List.flatten (List.map_congr_left fun c hc => ?_)
    obtain ⟨x, -, rfl⟩ := (hchild c).1 hc
    rw [(hroutes _ hc).found, List.map_map]
    rfl
  · intro r
    rw [mem_routesUnder_iff, htree, leads_directory_iff]
    constructor
    · rintro ⟨c, hc, s, hs, rfl⟩
      obtain ⟨hleads, hkept⟩ := ((hroutes c hc).mem_iff s).1 hs
      obtain ⟨x, hx, rfl⟩ := (hchild c).1 hc
      exact ⟨⟨x, hx, s, hleads, rfl⟩, hkept⟩
    · rintro ⟨⟨x, hx, s, hleads, rfl⟩, hkept⟩
      have hc : e.child x.1 x.2 ∈ children := (hchild _).2 ⟨x, hx, rfl⟩
      exact ⟨_, hc, s, ((hroutes _ hc).mem_iff s).2 ⟨hleads, hkept⟩, rfl⟩
  -- Routes through one entry are ordered by the names after it, and others by the names of the entries.
  · refine List.pairwise_flatMap.2 ⟨fun c hc => ?_, ?_⟩
    · exact List.pairwise_map.2 ((hroutes c hc).ordered.imp fun h => h.under c.name)
    · refine (pairwise_name_lt hproper htree all sorted).imp fun {a b} hlt => ?_
      intro r hr s hs
      obtain ⟨r, -, rfl⟩ := List.mem_map.1 hr
      obtain ⟨s, -, rfl⟩ := List.mem_map.1 hs
      exact Route.before_under_of_lt hlt r s

theorem Entry.isVisited_eq_false_iff : e.isVisited = false ↔
    e.depth ≠ 0 ∧ e.tree.isDirectory = true ∧ IsSkipped e.name := by
  simp [isVisited, isSkippedDirectory_iff]

theorem finds_file {content : List UInt8} (htree : e.tree = file content) :
    Finds e (fun r => Kept IsListed (e.name :: r.names)) [e]
      (if isSourceName e.name then [⟨[], content⟩] else []) := by
  refine ⟨?_, fun r => ?_, ?_⟩
  · by_cases h : isSourceName e.name = true <;> simp [Entry.source?, htree, h, Route.found]
  · rw [htree, leads_file_iff, List.mem_ite_nil_right, List.mem_singleton, and_comm]
    refine and_congr_right fun hr => ?_
    rw [hr, kept_singleton, isSourceName_iff]
  · split
    · exact List.pairwise_singleton _ _
    · exact .nil

theorem finds_special {kept : Route → Prop} (htree : e.tree = special) : Finds e kept [e] [] := by
  refine ⟨?_, fun r => ?_, .nil⟩
  · simp [Entry.source?, htree]
  · simp [htree, not_leads_special]

theorem proper_of_mem_children (hproper : e.tree.Proper) (hc : c ∈ e.children) :
    c.depth ≠ 0 ∧ c.tree.Proper := by
  unfold Entry.children at hc
  split at hc
  · rename_i entries htree
    obtain ⟨x, hx, rfl⟩ := List.mem_map.1 hc
    rw [htree] at hproper
    cases hproper with
    | directory _ _ hentries => exact ⟨Nat.succ_ne_zero _, hentries x hx⟩
  · cases hc

/-- A scan finds the files to list from each entry below its root, whether the entry is a file itself or
a directory. -/
theorem Visits.exists_finds (h : Visits Entry.isVisited e visited) (hdepth : e.depth ≠ 0)
    (hproper : e.tree.Proper) :
    ∃ routes, Finds e (fun r => Kept IsListed (e.name :: r.names)) visited routes := by
  induction h with
  | @pruned e hpruned =>
    obtain ⟨-, hdirectory, hskipped⟩ := Entry.isVisited_eq_false_iff.1 hpruned
    cases htree : e.tree with
    | file | special => simp [htree, isDirectory] at hdirectory
    | directory entries =>
      -- All routes through a skipped directory pass its name.
      refine ⟨[], rfl, fun r => ?_, .nil⟩
      rw [htree]
      simp only [List.not_mem_nil, false_iff]
      exact fun ⟨hleads, hkept⟩ => ((kept_cons hleads.names_ne_nil).1 hkept).1 hskipped
  | @entered e children visits hvisited all sorted below ih =>
    have hleaf (hno : e.tree.isDirectory = false) : children = [] :=
      List.perm_nil.1 (Entry.children_eq_nil hno ▸ all)
    cases htree : e.tree with
    | file content =>
      rw [hleaf (by rw [htree]; rfl)]
      exact ⟨_, finds_file htree⟩
    | special =>
      rw [hleaf (by rw [htree]; rfl)]
      exact ⟨_, finds_special htree⟩
    | directory entries =>
      have hname : ¬ IsSkipped e.name := by
        intro hskipped
        have hpruned := Entry.isVisited_eq_false_iff.2 ⟨hdepth, by rw [htree]; rfl, hskipped⟩
        rw [hvisited] at hpruned
        cases hpruned
      obtain ⟨routes, hroutes⟩ :=
        exists_finds_children htree (htree ▸ hproper) all sorted fun c hc =>
          have hchild := proper_of_mem_children hproper (all.mem_iff.1 hc)
          ih c hc hchild.1 hchild.2
      refine ⟨routes, hroutes.found, fun r => ?_, hroutes.ordered⟩
      rw [hroutes.mem_iff, htree]
      refine and_congr_right fun hleads => ?_
      rw [kept_cons hleads.names_ne_nil, and_iff_right hname]

/-- A scan of a directory finds the files to list below it, whatever the name of the directory. -/
theorem Visits.exists_finds_root (h : Visits Entry.isVisited e visited) (hdepth : e.depth = 0)
    (htree : e.tree = directory entries) (hproper : (directory entries).Proper) :
    ∃ routes, Finds e (fun r => Kept IsListed r.names) visited routes := by
  cases h with
  | pruned hpruned => exact absurd hdepth (Entry.isVisited_eq_false_iff.1 hpruned).1
  | entered _ all sorted below =>
    refine exists_finds_children htree hproper all sorted fun c hc => ?_
    have hchild := proper_of_mem_children (htree ▸ hproper) (all.mem_iff.1 hc)
    exact (below c hc).exists_finds hchild.1 hchild.2

/-! ### The walk of a tree -/

theorem visitEntries_eq (path : List UInt8) (depth : Nat) (entries : List (List UInt8 × FileTree)) :
    visitEntries keep path depth entries =
      entries.map fun x => (x.1, visit keep (join path x.1) x.1 depth x.2) := by
  induction entries with
  | nil => rfl
  | cons x rest ih =>
    obtain ⟨name, tree⟩ := x
    rw [visitEntries, ih, List.map_cons]

/-- The entry, visited with what is below it. -/
def Entry.walked (keep : Entry → Bool) (e : Entry) : List Entry :=
  visit keep e.path e.name e.depth e.tree

/-- The entries in the order of their names. -/
def sortedByName (es : List Entry) : List Entry :=
  es.mergeSort fun a b => decide (a.name ≤ b.name)

theorem pairwise_sortedByName (es : List Entry) :
    (sortedByName es).Pairwise fun a b => a.name ≤ b.name := by
  have hsorted : (sortedByName es).Pairwise fun a b => decide (a.name ≤ b.name) = true := by
    refine List.pairwise_mergeSort (fun a b c hab hbc => ?_) (fun a b => ?_) es
    · exact decide_eq_true (List.le_trans (of_decide_eq_true hab) (of_decide_eq_true hbc))
    · simpa using List.le_total a.name b.name
  exact hsorted.imp of_decide_eq_true

/-- The lists for the entries of a directory in the order of their names. -/
theorem inNameOrder_visitEntries (htree : e.tree = directory entries) :
    inNameOrder (visitEntries keep e.path (e.depth + 1) entries) =
      (sortedByName e.children).flatMap (Entry.walked keep) := by
  have hchildren := List.map_mergeSort (f := fun x : List UInt8 × FileTree => e.child x.1 x.2)
    (r := fun a b => decide (a.1 ≤ b.1)) (s := fun a b => decide (a.name ≤ b.name)) (l := entries)
    fun _ _ _ _ => rfl
  have hlists := List.map_mergeSort
    (f := fun x : List UInt8 × FileTree => (x.1, (e.child x.1 x.2).walked keep))
    (r := fun a b => decide (a.1 ≤ b.1)) (s := fun a b => decide (a.1 ≤ b.1)) (l := entries)
    fun _ _ _ _ => rfl
  rw [sortedByName, Entry.children_eq htree, ← hchildren, List.flatMap_map, visitEntries_eq,
    inNameOrder]
  exact (congrArg _ hlists.symm).trans (List.flatMap_map _ _ _)

theorem visits_of_leaf (keep : Entry → Bool) (hno : e.tree.isDirectory = false) :
    Visits keep e ([e].filter keep) := by
  cases hkeep : keep e with
  | false =>
    rw [List.filter_cons_of_neg (by simp [hkeep])]
    exact .pruned hkeep
  | true =>
    rw [List.filter_cons_of_pos hkeep]
    have hchildren : ([] : List Entry).Perm e.children := by rw [Entry.children_eq_nil hno]
    have hbelow : ∀ c ∈ ([] : List Entry), Visits keep c [] := fun c hc => absurd hc List.not_mem_nil
    exact .entered hkeep hchildren .nil hbelow

/-- From every entry on, the walk is in pre-order. -/
theorem visits_walked (keep : Entry → Bool) (e : Entry) : Visits keep e (e.walked keep) := by
  obtain ⟨path, name, depth, tree⟩ := e
  induction tree using FileTree.induction generalizing path name depth with
  | file content =>
    rw [Entry.walked, visit]
    exact visits_of_leaf keep rfl
  | special =>
    rw [Entry.walked, visit]
    exact visits_of_leaf keep rfl
  | directory entries ih =>
    rw [Entry.walked, visit]
    split
    · rename_i hkeep
      rw [inNameOrder_visitEntries (e := ⟨path, name, depth, directory entries⟩) rfl]
      refine .entered hkeep (List.mergeSort_perm _ _) (pairwise_sortedByName _) fun c hc => ?_
      rw [sortedByName, List.mem_mergeSort, Entry.children_eq rfl] at hc
      obtain ⟨x, hx, rfl⟩ := List.mem_map.1 hc
      exact ih x hx _ _ _
    · rename_i hkeep
      exact .pruned (Bool.eq_false_iff.2 hkeep)

/-- The walk in pre-order is one. -/
theorem inPreorder_preorder (path : List UInt8) (tree : FileTree) :
    Walk.InPreorder preorder path tree :=
  fun keep => ⟨path, visit keep path path 0 tree, rfl, visits_walked keep ⟨path, path, 0, tree⟩⟩

end GoBuild
