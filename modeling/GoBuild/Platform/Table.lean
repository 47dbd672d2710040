/-!
# The table of platforms

The pairs of operating system and architecture for which programs can be built, with the order in
which they are preferred: first class platforms before the others, and among them 64-bit ones first.
-/

namespace GoBuild

/-- A pair of operating system and architecture for which programs can be built. -/
structure Platform where
  os : String
  arch : String
  /-- Programs for the pair can be built with cgo. -/
  cgo : Bool
  /-- The pair is one of the platforms whose failures block a release. -/
  firstClass : Bool
deriving DecidableEq

namespace Platform

/-- The pair as text. -/
def name (p : Platform) : String := p.os ++ "/" ++ p.arch

/-- The place of a platform in the order of preference, smaller numbers first. -/
def rank (p : Platform) : Nat :=
  if p.firstClass then (if p.arch = "386" || p.arch = "arm" then 1 else 0) else 2

/-- The platforms in order of preference; those of the same rank keep their order. -/
def sortByRank (table : List Platform) : List Platform :=
  table.mergeSort fun p q => decide (p.rank ≤ q.rank)

/-- The platforms of the newest release, in order of preference. -/
def defaultTable : List Platform :=
  [⟨"darwin", "amd64", true, true⟩,
   ⟨"darwin", "arm64", true, true⟩,
   ⟨"linux", "amd64", true, true⟩,
   ⟨"linux", "arm64", true, true⟩,
   ⟨"windows", "amd64", true, true⟩,
   ⟨"linux", "386", true, true⟩,
   ⟨"linux", "arm", true, true⟩,
   ⟨"windows", "386", true, true⟩,
   ⟨"aix", "ppc64", true, false⟩,
   ⟨"android", "386", true, false⟩,
   ⟨"android", "amd64", true, false⟩,
   ⟨"android", "arm", true, false⟩,
   ⟨"android", "arm64", true, false⟩,
   ⟨"dragonfly", "amd64", true, false⟩,
   ⟨"freebsd", "386", true, false⟩,
   ⟨"freebsd", "amd64", true, false⟩,
   ⟨"freebsd", "arm", true, false⟩,
   ⟨"freebsd", "arm64", true, false⟩,
   ⟨"freebsd", "riscv64", true, false⟩,
   ⟨"illumos", "amd64", true, false⟩,
   ⟨"ios", "amd64", true, false⟩,
   ⟨"ios", "arm64", true, false⟩,
   ⟨"js", "wasm", false, false⟩,
   ⟨"linux", "loong64", true, false⟩,
   ⟨"linux", "mips", true, false⟩,
   ⟨"linux", "mips64", true, false⟩,
   ⟨"linux", "mips64le", true, false⟩,
   ⟨"linux", "mipsle", true, false⟩,
   ⟨"linux", "ppc64", false, false⟩,
   ⟨"linux", "ppc64le", true, false⟩,
   ⟨"linux", "riscv64", true, false⟩,
   ⟨"linux", "s390x", true, false⟩,
   ⟨"netbsd", "386", true, false⟩,
   ⟨"netbsd", "amd64", true, false⟩,
   ⟨"netbsd", "arm", true, false⟩,
   ⟨"netbsd", "arm64", true, false⟩,
   ⟨"openbsd", "386", true, false⟩,
   ⟨"openbsd", "amd64", true, false⟩,
   ⟨"openbsd", "arm", true, false⟩,
   ⟨"openbsd", "arm64", true, false⟩,
   ⟨"openbsd", "ppc64", false, false⟩,
   ⟨"plan9", "386", false, false⟩,
   ⟨"plan9", "amd64", false, false⟩,
   ⟨"plan9", "arm", false, false⟩,
   ⟨"solaris", "amd64", true, false⟩,
   ⟨"wasip1", "wasm", false, false⟩,
   ⟨"windows", "arm", false, false⟩,
   ⟨"windows", "arm64", true, false⟩]

end Platform

end GoBuild
