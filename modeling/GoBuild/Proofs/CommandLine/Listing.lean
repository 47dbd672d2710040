import GoBuild.Proofs.CommandLine.Walk
import GoBuild.Proofs.Except
import GoBuild.Proofs.Text.Lines

/-!
# The files that a command is about

The files for the paths of a command line are those of its paths one after the other; the first path at
which there is neither a regular file nor a directory ends the command. A path that names a file stands for
that file, whatever its name. A path that names a directory stands for the source files below it, each once
and in strictly increasing order (`FileSystem.collect_lists`); the name of that directory itself does not
count. Names that are not UTF-8 are those of no source files (`FileSystem.not_lists_of_not_utf8`).
-/

namespace GoBuild

open FileTree

variable {fs : FileSystem} {roots : List (List UInt8)} {root name : List UInt8}
  {names names' : List (List UInt8)} {tree : FileTree}

/-! ### Paths -/

namespace FileTree

/-- The beginning of the paths of the entries of the directory at `root`. -/
def directoryMark (root : List UInt8) : List UInt8 :=
  if root = [] ∨ root.getLast? = some separator then root else root ++ [separator]

theorem join_eq (root name : List UInt8) : join root name = directoryMark root ++ name := by
  unfold join directoryMark
  split
  · rfl
  · rw [List.append_assoc, List.singleton_append]

theorem directoryMark_join (h : IsFileName name) (root : List UInt8) :
    directoryMark (join root name) = directoryMark root ++ name ++ [separator] := by
  obtain ⟨front, last, rfl⟩ := (List.eq_nil_or_concat name).resolve_left h.1
  have hne : last ≠ separator := fun heq => h.2 (by simp [heq])
  rw [directoryMark, join_eq]
  simp [hne]

theorem foldl_join (hne : names ≠ []) (h : ∀ name ∈ names, IsFileName name) (root : List UInt8) :
    names.foldl join root = directoryMark root ++ [separator].intercalate names := by
  induction names generalizing root with
  | nil => exact absurd rfl hne
  | cons name rest ih =>
    rw [List.forall_mem_cons] at h
    cases rest with
    | nil =>
      rw [List.intercalate_singleton]
      exact join_eq root name
    | cons next rest =>
      rw [List.foldl_cons, ih (List.cons_ne_nil _ _) h.2, directoryMark_join h.1]
      simp only [List.intercalate_cons_cons, List.append_assoc]

/-- The path of a file determines the names that lead to it. -/
theorem names_eq_of_foldl_join_eq (hne : names ≠ []) (hne' : names' ≠ [])
    (h : ∀ name ∈ names, IsFileName name) (h' : ∀ name ∈ names', IsFileName name)
    (heq : names.foldl join root = names'.foldl join root) : names = names' := by
  rw [foldl_join hne h, foldl_join hne' h'] at heq
  exact Text.eq_of_intercalate_eq (fun name hname => (h name hname).2)
    (fun name hname => (h' name hname).2) hne hne' (List.append_cancel_left heq)

/-- Routes in strictly increasing order lead to files with different paths. -/
theorem nodup_paths {entries : List (List UInt8 × FileTree)} {routes : List Route}
    (hproper : (directory entries).Proper) (hleads : ∀ r ∈ routes, Leads (directory entries) r)
    (ordered : routes.Pairwise Route.Before) (root : List UInt8) :
    (routes.map fun r => (r.found root).path).Nodup := by
  refine List.pairwise_map.2 (ordered.imp_of_mem fun {r s} hr hs hbefore heq => ?_)
  have hr := hleads r hr
  have hs := hleads s hs
  exact hbefore.names_ne (names_eq_of_foldl_join_eq hr.names_ne_nil hs.names_ne_nil
    (hr.isFileName hproper) (hs.isFileName hproper) heq)

/-! ### What paths name -/

theorem proper_of_descend {above : List FileTree} {here : FileTree} {components : List (List UInt8)}
    (habove : ∀ t ∈ above, t.Proper) (hhere : here.Proper)
    (h : descend above here components = some tree) : tree.Proper := by
  induction components generalizing above here with
  | nil =>
    rw [descend] at h
    exact Option.some.inj h ▸ hhere
  | cons component rest ih =>
    cases here with
    | file | special => simp [descend] at h
    | directory entries =>
      simp only [descend] at h
      split at h
      · exact ih habove hhere h
      split at h
      · cases above with
        | nil => simp at h
        | cons parent further =>
          rw [List.forall_mem_cons] at habove
          exact ih habove.2 habove.1 h
      · split at h
        · simp at h
        · rename_i entry hentry
          obtain ⟨before, after, hentries, -⟩ := List.lookup_eq_some_iff.1 hentry
          cases hhere with
          | directory hdistinct hnamed hproper =>
            have hmem : (component, entry) ∈ entries := by simp [hentries]
            exact ih (List.forall_mem_cons.2 ⟨.directory hdistinct hnamed hproper, habove⟩)
              (hproper _ hmem) h

/-- What a path names in a proper tree is proper. -/
theorem proper_of_find? {top : FileTree} (h : top.Proper) (hfind : top.find? root = some tree) :
    tree.Proper := by
  unfold find? at hfind
  split at hfind
  · simp at hfind
  · exact proper_of_descend (fun _ ht => absurd ht List.not_mem_nil) h hfind

/-! ### The files below one path -/

/-- The files for a path that names the tree, in order: the file itself, or the files below the directory
whose names are kept, in increasing order of these names and with different paths. -/
inductive Lists (source : List UInt8 → Prop) (root : List UInt8) :
    FileTree → List FoundFile → Prop
  | file (content : List UInt8) : Lists source root (file content) [⟨root, content⟩]
  | directory {entries : List (List UInt8 × FileTree)} (routes : List Route)
      (kept : ∀ r, r ∈ routes ↔ Leads (directory entries) r ∧ Kept source r.names)
      (ordered : routes.Pairwise Route.Before)
      (distinct : (routes.map fun r => (r.found root).path).Nodup) :
      Lists source root (directory entries) (routes.map (Route.found root))

theorem Lists.mem_iff {source : List UInt8 → Prop} {entries : List (List UInt8 × FileTree)}
    {files : List FoundFile} {f : FoundFile} (h : Lists source root (.directory entries) files) :
    f ∈ files ↔
      ∃ r, (Leads (.directory entries) r ∧ Kept source r.names) ∧ r.found root = f := by
  cases h with
  | directory routes kept => simp only [List.mem_map, kept]

end FileTree

namespace FileSystem

/-- At the path there is a regular file or a directory. -/
def Holds (fs : FileSystem) (root : List UInt8) : Prop :=
  ∃ tree, fs.find root = some tree ∧ tree ≠ special

/-- What is relied on of the path: what is there is proper, and the walk of a directory is in
pre-order. -/
structure Orderly (fs : FileSystem) (root : List UInt8) : Prop where
  proper : ∀ tree, fs.find root = some tree → tree.Proper
  walk : ∀ entries, fs.find root = some (directory entries) →
    Walk.InPreorder fs.walk root (directory entries)

theorem filesAt_of_not_holds (h : ¬ fs.Holds root) : fs.filesAt root = .error (.missing root) := by
  unfold filesAt
  cases hfind : fs.find root with
  | none => rfl
  | some tree =>
    cases tree with
    | file | directory => exact absurd ⟨_, hfind, nofun⟩ h
    | special => rfl

/-- A walk that can read all entries gives a list of them. -/
theorem scan_eq {visited : List Entry}
    (hwalk : fs.walk Entry.isVisited root tree = visited.map some) :
    fs.scan root tree = .ok (visited.filterMap Entry.source?) := by
  have hread : (visited.map some).mapM id = some visited := by
    rw [List.mapM_map]
    exact List.mapM_pure.trans (congrArg some (List.map_id visited))
  rw [scan, hwalk, hread]

/-- The files for a path at which there is a regular file or a directory are those to list. -/
theorem Orderly.exists_filesAt (ho : fs.Orderly root) (h : fs.Holds root) :
    ∃ files tree, fs.filesAt root = .ok files ∧ fs.find root = some tree ∧
      Lists IsListed root tree files := by
  obtain ⟨tree, hfind, hne⟩ := h
  cases tree with
  | special => exact absurd rfl hne
  | file content => exact ⟨_, _, by rw [filesAt, hfind], hfind, .file content⟩
  | directory entries =>
    have hproper := ho.proper _ hfind
    obtain ⟨name, visited, hvisited, hvisits⟩ := ho.walk entries hfind Entry.isVisited
    obtain ⟨routes, hroutes⟩ := hvisits.exists_finds_root rfl rfl hproper
    refine ⟨_, _, by rw [filesAt, hfind]; exact scan_eq hvisited, hfind, ?_⟩
    rw [hroutes.found]
    have hleads : ∀ r ∈ routes, Leads (directory entries) r :=
      fun r hr => ((hroutes.mem_iff r).1 hr).1
    exact .directory routes hroutes.mem_iff hroutes.ordered
      (nodup_paths hproper hleads hroutes.ordered root)

theorem Orderly.exists_filesAt_iff (ho : fs.Orderly root) :
    (∃ files, fs.filesAt root = .ok files) ↔ fs.Holds root := by
  constructor
  · rintro ⟨files, h⟩
    by_contra hno
    rw [filesAt_of_not_holds hno] at h
    cases h
  · intro h
    obtain ⟨files, -, hread, -⟩ := ho.exists_filesAt h
    exact ⟨files, hread⟩

theorem Orderly.filesAt_eq_error_iff (ho : fs.Orderly root) {e : ListingError} :
    fs.filesAt root = .error e ↔ ¬ fs.Holds root ∧ e = .missing root := by
  constructor
  · intro he
    have hno : ¬ fs.Holds root := by
      intro h
      obtain ⟨files, hread⟩ := ho.exists_filesAt_iff.2 h
      rw [hread] at he
      cases he
    rw [filesAt_of_not_holds hno] at he
    exact ⟨hno, (Except.error.inj he).symm⟩
  · rintro ⟨hno, rfl⟩
    exact filesAt_of_not_holds hno

/-- Every path down a proper tree is orderly, with the walk of trees. -/
theorem orderly_ofTree {top : FileTree} (h : top.Proper) (root : List UInt8) :
    (ofTree top).Orderly root :=
  ⟨fun _ hfind => proper_of_find? h hfind, fun _ _ => inPreorder_preorder _ _⟩

/-! ### The files of a command -/

theorem collect_eq_error_iff {e : ListingError} : fs.collect roots = .error e ↔
    ∃ before root after, roots = before ++ root :: after ∧
      (∀ r ∈ before, ∃ files, fs.filesAt r = .ok files) ∧ fs.filesAt root = .error e := by
  rw [← Except.mapM_eq_error_iff_exists_append, collect]
  cases roots.mapM fs.filesAt <;> simp [pure, Except.pure]

theorem collect_eq_ok {listing : List UInt8 → List FoundFile}
    (h : ∀ root ∈ roots, fs.filesAt root = .ok (listing root)) :
    fs.collect roots = .ok (roots.flatMap listing) := by
  have hread : roots.mapM fs.filesAt = .ok (roots.map listing) := by
    rw [Except.mapM_eq_ok_iff, List.map_map]
    exact List.map_congr_left h
  rw [collect, hread, Except.ok_bind]
  rfl

/-- **A scan lists exactly the files to build.** If at some path there is neither a regular file nor a
directory, the command fails with the first such path, and otherwise it lists the files of its paths one
after the other: the file that a path names, or the kept files below the directory that it names, of those
whose names are UTF-8. -/
theorem collect_lists (ho : ∀ root ∈ roots, fs.Orderly root) :
    (∀ e, fs.collect roots = .error e ↔ ∃ before root after, roots = before ++ root :: after ∧
      (∀ r ∈ before, fs.Holds r) ∧ ¬ fs.Holds root ∧ e = .missing root) ∧
    ((∀ root ∈ roots, fs.Holds root) → ∃ listing : List UInt8 → List FoundFile,
      fs.collect roots = .ok (roots.flatMap listing) ∧
      ∀ root ∈ roots, ∃ tree, fs.find root = some tree ∧ Lists IsListed root tree (listing root)) := by
  refine ⟨fun e => ?_, fun hholds => ?_⟩
  · rw [collect_eq_error_iff]
    refine exists_congr fun before => exists_congr fun root => exists_congr fun after =>
      and_congr_right fun hroots => ?_
    subst hroots
    rw [(ho root (by simp)).filesAt_eq_error_iff]
    refine and_congr_left fun _ => forall₂_congr fun r hr => ?_
    exact (ho r (by simp [hr])).exists_filesAt_iff
  · choose! listing tree hread hfind hlists using fun root hroot =>
      (ho root hroot).exists_filesAt (hholds root hroot)
    exact ⟨listing, collect_eq_ok hread, fun root hroot => ⟨_, hfind root hroot, hlists root hroot⟩⟩

/-- A directory named `vendor` and a hidden file count when they are named themselves. A pipe that is
named ends the command. -/
theorem collect_lists_vendor :
    let name (text : String) : List UInt8 := Text.encode text.toList
    let inner : FileTree := .directory [(name "z.go", .file []), (name "a.go", .file []),
      (name "_old.go", .file []), ([0xff, 0x2e, 0x67, 0x6f], .file []), (name "p.go", .special),
      (name "testdata", .directory [(name "d.go", .file [])]),
      (name "a", .directory [(name "y.go", .file [])])]
    let fs : FileSystem := .ofTree (.directory [(name "vendor", inner), (name "_one.go", .file [])])
    let roots := [name "_one.go", name "vendor"]
    let pipe := name "vendor/p.go"
    (∀ root ∈ roots, fs.Orderly root) ∧ (∀ root ∈ roots, fs.Holds root) ∧
      (∃ listing : List UInt8 → List FoundFile, fs.collect roots = .ok (roots.flatMap listing) ∧
        ∀ root ∈ roots, ∃ tree, fs.find root = some tree ∧ Lists IsListed root tree (listing root)) ∧
      fs.collect (roots ++ [pipe]) = .error (.missing pipe) := by
  intro name inner fs roots pipe
  have hleaf (leaf : List UInt8) (h : IsFileName leaf) : (directory [(leaf, .file [])]).Proper :=
    .directory (List.pairwise_singleton _ _) (List.forall_mem_singleton.2 h)
      (List.forall_mem_singleton.2 (.file []))
  have hinner : inner.Proper := by
    refine .directory (by decide +kernel) (by decide +kernel) ?_
    simp only [List.forall_mem_cons]
    exact ⟨.file [], .file [], .file [], .file [], .special, hleaf (name "d.go") (by decide +kernel),
      hleaf (name "y.go") (by decide +kernel), fun _ he => absurd he List.not_mem_nil⟩
  have htop : (directory [(name "vendor", inner), (name "_one.go", .file [])]).Proper := by
    refine .directory (by decide +kernel) (by decide +kernel) ?_
    simp only [List.forall_mem_cons]
    exact ⟨hinner, .file [], fun _ he => absurd he List.not_mem_nil⟩
  have ho (roots : List (List UInt8)) : ∀ root ∈ roots, fs.Orderly root :=
    fun root _ => orderly_ofTree htop root
  have hholds : ∀ root ∈ roots, fs.Holds root :=
    List.forall_mem_cons.2 ⟨⟨.file [], rfl, nofun⟩, List.forall_mem_singleton.2 ⟨inner, rfl, nofun⟩⟩
  have hpipe : ¬ fs.Holds pipe := by
    rintro ⟨tree, hfind, hne⟩
    exact hne (Option.some.inj (hfind.symm.trans rfl))
  exact ⟨ho roots, hholds, (collect_lists (ho roots)).2 hholds,
    ((collect_lists (ho _)).1 _).2 ⟨roots, pipe, [], rfl, hholds, hpipe, rfl⟩⟩

/-- A file that ends in `.go` is not listed if its name is not UTF-8, and a path at which there is a
device, say, ends the command like one at which there is nothing. -/
theorem not_lists_of_not_utf8 :
    let name : List UInt8 := [0xff, 0x2e, 0x67, 0x6f]
    let dir : List UInt8 := [0x64]
    let device : List UInt8 := [0x6e]
    let inner : FileTree := .directory [(name, .file [])]
    let fs : FileSystem := .ofTree (.directory [(dir, inner), (device, .special)])
    (fs.Orderly dir ∧ fs.find dir = some inner ∧ IsSource name ∧
      ¬ ∃ listing : List UInt8 → List FoundFile, fs.collect [dir] = .ok ([dir].flatMap listing) ∧
        ∀ root ∈ [dir], ∃ tree, fs.find root = some tree ∧
          Lists IsSource root tree (listing root)) ∧
      fs.Orderly device ∧ fs.find device = some special ∧
      fs.collect [device] = .error (.missing device) := by
  intro name dir device inner fs
  have hinner : inner.Proper :=
    .directory (List.pairwise_singleton _ _) (List.forall_mem_singleton.2 (by decide))
      (List.forall_mem_singleton.2 (.file []))
  have htop : (directory [(dir, inner), (device, .special)]).Proper := by
    refine .directory (by decide) (by decide) ?_
    simp only [List.forall_mem_cons]
    exact ⟨hinner, .special, fun _ he => absurd he List.not_mem_nil⟩
  have hsource : IsSource name := by
    refine ⟨⟨[0xff], rfl⟩, ?_⟩
    rintro ⟨rest, heq | heq⟩ <;> simp [name] at heq
  have hleads : ∀ r, Leads inner r ↔ r = ⟨[name], []⟩ := by
    intro r
    simp [inner, leads_directory_iff, leads_file_iff, Route.under]
  refine ⟨⟨orderly_ofTree htop dir, rfl, hsource, ?_⟩, orderly_ofTree htop device, rfl, rfl⟩
  rintro ⟨listing, hcollect, hlists⟩
  obtain ⟨tree, hfind, hlists⟩ := List.forall_mem_singleton.1 hlists
  obtain rfl : inner = tree := Option.some.inj hfind
  obtain ⟨files, tree, hread, hfind, hfiles⟩ :=
    (orderly_ofTree htop dir).exists_filesAt ⟨inner, hfind, nofun⟩
  obtain rfl : inner = tree := Option.some.inj hfind
  have hsame : files = listing dir := by
    have hfound : fs.collect [dir] = .ok ([dir].flatMap fun _ => files) :=
      collect_eq_ok (List.forall_mem_singleton.2 hread)
    rw [hfound] at hcollect
    simpa using Except.ok.inj hcollect
  -- The literal list holds the file, but what is listed is UTF-8.
  have hmem := hlists.mem_iff.2 ⟨_, ⟨(hleads _).2 rfl, kept_singleton.2 hsource⟩, rfl⟩
  rw [← hsame] at hmem
  obtain ⟨r, ⟨hr, hkept⟩, -⟩ := hfiles.mem_iff.1 hmem
  rw [(hleads r).1 hr, kept_singleton] at hkept
  exact Text.decode?_eq_none_iff.1 (by decide +kernel) hkept.1

end FileSystem

end GoBuild
