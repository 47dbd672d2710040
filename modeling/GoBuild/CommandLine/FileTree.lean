/-!
# Trees of files

What a command sees of a file system (`FileSystem`): what is at a path, and what a walk of a directory
comes by. Names and paths are bytes, which need not be text. The walk is a parameter of the program;
`FileTree.preorder` is the one in which each directory comes before its entries, and these come in the
order of their names.
-/

namespace GoBuild

/-- A regular file, a directory with its named entries, or something else, such as a device, a pipe
or a link. -/
inductive FileTree where
  | file (content : List UInt8)
  | directory (entries : List (List UInt8 × FileTree))
  | special
deriving Inhabited

/-- Something that a walk comes by: its path and its name, how far it is below the directory where the
walk starts, and what it is. -/
structure Entry where
  path : List UInt8
  name : List UInt8
  depth : Nat
  tree : FileTree

/-- How directories are walked: from a choice of what to visit, and a directory with its path, to what
the walk comes by, where `none` is an entry that cannot be read. -/
abbrev Walk := (Entry → Bool) → List UInt8 → FileTree → List (Option Entry)

/-- What the program asks of the files around it. -/
structure FileSystem where
  find : List UInt8 → Option FileTree
  walk : Walk

namespace FileTree

/-! ### Paths -/

/-- The byte between the names of a path. -/
def separator : UInt8 := 0x2f

/-- The path of the entry `name` of the directory at `path`. -/
def join (path name : List UInt8) : List UInt8 :=
  if path = [] ∨ path.getLast? = some separator then path ++ name else path ++ separator :: name

/-- What the components of a path name, from the directory `here` with the directories `above`
around it, innermost first. -/
def descend (above : List FileTree) (here : FileTree) : List (List UInt8) → Option FileTree
  | [] => some here
  | component :: rest =>
    match here with
    | file _ | special => none
    | directory entries =>
      if component = [] || component = [0x2e] then descend above here rest
      else if component = [0x2e, 0x2e] then
        match above with
        | [] => none
        | parent :: further => descend further parent rest
      else
        match entries.lookup component with
        | none => none
        | some entry => descend (here :: above) entry rest

/-- What a path relative to the directory `root` names. -/
def find? (root : FileTree) (path : List UInt8) : Option FileTree :=
  if path = [] ∨ path.head? = some separator then none
  else descend [] root (path.splitOn separator)

/-! ### The walk in pre-order -/

/-- The lists in the order of the names that go with them. -/
def inNameOrder {α : Type} (named : List (List UInt8 × List α)) : List α :=
  (named.mergeSort fun a b => decide (a.1 ≤ b.1)).flatMap (·.2)

mutual

/-- What a walk from an entry comes by that visits what `keep` allows. -/
def visit (keep : Entry → Bool) (path name : List UInt8) (depth : Nat) : FileTree → List Entry
  | file content => [⟨path, name, depth, file content⟩].filter keep
  | special => [⟨path, name, depth, special⟩].filter keep
  | directory entries =>
    if keep ⟨path, name, depth, directory entries⟩ then
      ⟨path, name, depth, directory entries⟩ ::
        inNameOrder (visitEntries keep path (depth + 1) entries)
    else []

/-- What the walk comes by from each entry of the directory at `path`, with the name of the entry. -/
def visitEntries (keep : Entry → Bool) (path : List UInt8) (depth : Nat) :
    List (List UInt8 × FileTree) → List (List UInt8 × List Entry)
  | [] => []
  | (name, tree) :: rest =>
    (name, visit keep (join path name) name depth tree) :: visitEntries keep path depth rest

end

/-- The walk in which a directory comes before its entries, and these in the order of their names. -/
def preorder : Walk := fun keep path tree => (visit keep path path 0 tree).map some

end FileTree

/-- The files below the directory `root`, walked in pre-order. -/
def FileSystem.ofTree (root : FileTree) : FileSystem := ⟨root.find?, FileTree.preorder⟩

end GoBuild
