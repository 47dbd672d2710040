import GoBuild.CommandLine.Program

/-!
# The command

The command on a real machine: the trees at the paths of the command line are read in advance, the
program runs on them, and its outcome is written.
-/

namespace GoBuild.Main

/-- The tree at the path of a directory entry, with its name. -/
partial def treeOfEntry (entry : IO.FS.DirEntry) : IO (List UInt8 × FileTree) := do
  let name := Text.encode entry.fileName.toList
  match (← entry.path.symlinkMetadata).type with
  | .dir => return (name, .directory (← (← entry.path.readDir).toList.mapM treeOfEntry))
  | .file => return (name, .file (← IO.FS.readBinFile entry.path).toList)
  | _ => return (name, .special)

/-- The tree at a path, if there is one. -/
def treeAt? (path : String) : IO (Option FileTree) := do
  let place := (← IO.currentDir) / path
  if !(← place.pathExists) then
    return none
  match (← place.metadata).type with
  | .dir => return some (.directory (← (← place.readDir).toList.mapM treeOfEntry))
  | .file => return some (.file (← IO.FS.readBinFile place).toList)
  | _ => return some .special

/-- The paths that a command line names. -/
def namedPaths (words : List String) : List String :=
  match Command.parse words with
  | .ok (.run o) => o.paths ++ (o.value? .config).toList ++ (o.value? .platforms).toList
  | _ => []

/-- Runs the command and returns its exit status. -/
def runCommand (words : List String) : IO UInt32 := do
  let trees ← (namedPaths words).mapM fun path => do
    return (Text.encode path.toList, ← treeAt? path)
  let outcome := Program.run ⟨fun path => (trees.lookup path).join, FileTree.preorder⟩ words
  for line in outcome.output do
    IO.println line
  if let some e := outcome.fatal then
    IO.eprintln ("Error: " ++ e.message)
  return outcome.status.toUInt32

end GoBuild.Main

/-- Runs the command on the words of the command line. -/
def main (words : List String) : IO UInt32 := GoBuild.Main.runCommand words
