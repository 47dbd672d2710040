import GoBuild.Proofs.CommandLine.SourceNames

/-!
# Routes down a tree of files

A file below a directory is known by the names of the entries that lead down to it
(`FileTree.Leads`). Whether a scan is to list it can be read off these names (`FileTree.Kept`), and so
can its place in the list: the names are compared as bytes, one after the other, so that a directory `a`
comes before a file `a.go` (`FileTree.Route.Before`).
-/

namespace GoBuild.FileTree

/-! ### Trees -/

/-- What holds of files and of special entries, and of a directory if it holds of its entries, holds of
all trees. -/
theorem induction {P : FileTree → Prop} (file : ∀ content, P (file content)) (special : P special)
    (directory : ∀ entries, (∀ e ∈ entries, P e.2) → P (directory entries)) (tree : FileTree) :
    P tree :=
  @FileTree.rec P (fun entries => ∀ e ∈ entries, P e.2) (fun e => P e.2) file directory special
    (fun _ he => absurd he List.not_mem_nil)
    (fun _ _ hhead hrest _ he => (List.mem_cons.1 he).elim (fun h => h ▸ hhead) (hrest _))
    (fun _ _ h => h) tree

/-- The name can stand for one component of a path. -/
def IsFileName (name : List UInt8) : Prop := name ≠ [] ∧ separator ∉ name

instance (name : List UInt8) : Decidable (IsFileName name) := inferInstanceAs (Decidable (_ ∧ _))

/-- In each directory the entries have different names, which are those of files. -/
inductive Proper : FileTree → Prop
  | file (content : List UInt8) : Proper (file content)
  | special : Proper special
  | directory {entries : List (List UInt8 × FileTree)} (distinct : (entries.map (·.1)).Nodup)
      (named : ∀ e ∈ entries, IsFileName e.1) (proper : ∀ e ∈ entries, Proper e.2) :
      Proper (directory entries)

/-! ### Routes -/

/-- A way down a tree: the names of the entries passed, and the content of the file at the end. -/
structure Route where
  names : List (List UInt8)
  content : List UInt8

namespace Route

/-- The route from one directory further up. -/
def under (name : List UInt8) (r : Route) : Route := ⟨name :: r.names, r.content⟩

/-- The file at the end of the route, with its path from the root. -/
def found (root : List UInt8) (r : Route) : FoundFile := ⟨r.names.foldl join root, r.content⟩

/-- The names of the route come first, compared as bytes one after the other. -/
def Before (r s : Route) : Prop := r.names < s.names

theorem Before.under {r s : Route} (h : r.Before s) (name : List UInt8) :
    (r.under name).Before (s.under name) :=
  List.cons_lt_cons_self.2 h

theorem before_under_of_lt {a b : List UInt8} (h : a < b) (r s : Route) :
    (r.under a).Before (s.under b) :=
  .rel h

theorem Before.names_ne {r s : Route} (h : r.Before s) : r.names ≠ s.names := by
  intro heq
  rw [Before, heq] at h
  exact List.lt_irrefl s.names h

end Route

/-- The route leads down the tree to a file. -/
inductive Leads : FileTree → Route → Prop
  | file (content : List UInt8) : Leads (file content) ⟨[], content⟩
  | entry {entries : List (List UInt8 × FileTree)} {name : List UInt8} {tree : FileTree} {r : Route}
      (hmem : (name, tree) ∈ entries) (h : Leads tree r) : Leads (directory entries) (r.under name)

variable {entries : List (List UInt8 × FileTree)} {content : List UInt8} {r : Route}

theorem leads_file_iff : Leads (file content) r ↔ r = ⟨[], content⟩ := by
  constructor
  · rintro ⟨⟩
    rfl
  · rintro rfl
    exact .file content

theorem not_leads_special : ¬ Leads special r := nofun

theorem leads_directory_iff : Leads (directory entries) r ↔
    ∃ e ∈ entries, ∃ s, Leads e.2 s ∧ r = s.under e.1 := by
  constructor
  · rintro (_ | ⟨hmem, h⟩)
    exact ⟨_, hmem, _, h, rfl⟩
  · rintro ⟨e, hmem, s, h, rfl⟩
    exact .entry hmem h

theorem Leads.names_ne_nil (h : Leads (directory entries) r) : r.names ≠ [] := by
  obtain ⟨e, -, s, -, rfl⟩ := leads_directory_iff.1 h
  exact List.cons_ne_nil _ _

theorem Leads.isFileName {tree : FileTree} (h : Leads tree r) (hproper : tree.Proper) :
    ∀ name ∈ r.names, IsFileName name := by
  induction h with
  | file content => exact fun name hname => absurd hname List.not_mem_nil
  | entry hmem _ ih =>
    cases hproper with
    | directory _ hnamed hentries =>
      exact List.forall_mem_cons.2 ⟨hnamed _ hmem, ih (hentries _ hmem)⟩

/-! ### Which routes a scan takes -/

/-- The last of the names satisfies `source`, and no other one is that of a skipped directory. -/
def Kept (source : List UInt8 → Prop) (names : List (List UInt8)) : Prop :=
  ∃ dirs name, names = dirs ++ [name] ∧ source name ∧ ∀ dir ∈ dirs, ¬ IsSkipped dir

section Kept

variable {source : List UInt8 → Prop} {name : List UInt8} {names : List (List UInt8)}

theorem kept_singleton : Kept source [name] ↔ source name := by
  constructor
  · rintro ⟨dirs, last, heq, hsource, -⟩
    cases dirs with
    | nil =>
      obtain rfl := List.singleton_inj.1 heq
      exact hsource
    | cons dir dirs => simp at heq
  · exact fun h => ⟨[], name, rfl, h, fun _ hmem => absurd hmem List.not_mem_nil⟩

theorem kept_cons (hne : names ≠ []) :
    Kept source (name :: names) ↔ ¬ IsSkipped name ∧ Kept source names := by
  constructor
  · rintro ⟨dirs, last, heq, hsource, hdirs⟩
    cases dirs with
    | nil => exact absurd (List.cons.inj heq).2 hne
    | cons dir dirs =>
      obtain ⟨rfl, hrest⟩ := List.cons.inj heq
      exact ⟨hdirs name List.mem_cons_self, dirs, last, hrest, hsource,
        fun dir hdir => hdirs dir (List.mem_cons_of_mem _ hdir)⟩
  · rintro ⟨hname, dirs, last, rfl, hsource, hdirs⟩
    exact ⟨name :: dirs, last, rfl, hsource, List.forall_mem_cons.2 ⟨hname, hdirs⟩⟩

end Kept

end GoBuild.FileTree
