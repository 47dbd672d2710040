import GoBuild.CommandLine.FileTree
import GoBuild.Text.Utf8

/-!
# Source files

The files that a command is about: files named one by one, and all source files below directories
(`FileSystem.collect`). Below a directory, files whose names begin with a point or an underscore
are left out, and so is what lies in directories with such names or named `testdata` or `vendor`.
Files whose names are not text are left out as well.
-/

namespace GoBuild

/-- A file with the path by which it was found. -/
structure FoundFile where
  path : List UInt8
  content : List UInt8
deriving DecidableEq

namespace FileTree

/-- The name begins with a point or an underscore. -/
def isHidden : List Char → Bool
  | c :: _ => c = '.' || c = '_'
  | [] => false

/-- Nothing below a directory of this name is visited. -/
def isSkippedDirectory (name : List UInt8) : Bool :=
  let text := Text.decodeLossy name
  isHidden text || text = "testdata".toList || text = "vendor".toList

/-- The ending of the names of source files. -/
def sourceEnding : List Char := ['.', 'g', 'o']

/-- The name is that of a source file to visit. -/
def isSourceName (name : List UInt8) : Bool :=
  match Text.decode? name with
  | none => false
  | some text => sourceEnding.isSuffixOf text.toList && !isHidden text.toList

def isDirectory : FileTree → Bool
  | directory _ => true
  | _ => false

end FileTree

namespace Entry

/-- The entry is visited: it is where the walk starts, or no directory to skip. -/
def isVisited (e : Entry) : Bool :=
  e.depth = 0 || !(e.tree.isDirectory && FileTree.isSkippedDirectory e.name)

/-- The source file that the entry is. -/
def source? (e : Entry) : Option FoundFile :=
  match e.tree with
  | .file content => if FileTree.isSourceName e.name then some ⟨e.path, content⟩ else none
  | _ => none

end Entry

/-- Why there is no list of files. -/
inductive ListingError where
  | missing (root : List UInt8)
  | unwalkable (root : List UInt8)
deriving DecidableEq

namespace FileSystem

/-- The source files below the directory at `root`. -/
def scan (fs : FileSystem) (root : List UInt8) (tree : FileTree) :
    Except ListingError (List FoundFile) :=
  match (fs.walk Entry.isVisited root tree).mapM id with
  | none => .error (.unwalkable root)
  | some entries => .ok (entries.filterMap Entry.source?)

/-- The files for a path: the file that it names, or the source files below the directory. -/
def filesAt (fs : FileSystem) (root : List UInt8) : Except ListingError (List FoundFile) :=
  match fs.find root with
  | some (.file content) => .ok [⟨root, content⟩]
  | some (.directory entries) => fs.scan root (.directory entries)
  | some .special | none => .error (.missing root)

/-- The files for the paths, in order. -/
def collect (fs : FileSystem) (roots : List (List UInt8)) : Except ListingError (List FoundFile) :=
  return (← roots.mapM fs.filesAt).flatten

end FileSystem

end GoBuild
