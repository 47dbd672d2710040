import GoBuild.Platform.Names

/-!
# Hosts

The machine whose platform fills the gaps of a build context. Machines are often named by the triple
of a native toolchain; `osOfTriple` and `archOfTriple` give the names that build tags use.
-/

namespace GoBuild

/-- The platform and compiler of a machine. -/
structure Host where
  os : String
  arch : String
  compiler : String
deriving DecidableEq

/-- The tag name of an operating system named in a target triple. -/
def osOfTriple (os : String) : String := if os = "macos" then "darwin" else os

/-- The architectures whose names in target triples of little-endian machines differ from their tag
names. -/
def tripleArches : List (String × String) :=
  [("x86_64", "amd64"), ("x86", "386"), ("aarch64", "arm64"), ("powerpc", "ppc"),
   ("powerpc64", "ppc64le"), ("loongarch64", "loong64"), ("wasm32", "wasm"), ("mips64", "mips64le"),
   ("mips", "mipsle")]

/-- The tag name of an architecture named in the target triple of a little-endian machine. -/
def archOfTriple (arch : String) : String := (tripleArches.lookup arch).getD arch

/-- The host for which the program is built, with the standard compiler. -/
def Host.detected : Host := ⟨osOfTriple "linux", archOfTriple "x86_64", gcCompiler⟩

end GoBuild
