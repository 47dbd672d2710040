/-!
# Names of platforms and compilers

The names that build tags give to operating systems, architectures and compilers, the tags with a
meaning of their own, and the operating systems that also count as another one.
-/

namespace GoBuild

/-- The names of operating systems. -/
def knownOses : List String :=
  ["aix", "android", "darwin", "dragonfly", "freebsd", "hurd", "illumos", "ios", "js", "linux",
   "nacl", "netbsd", "openbsd", "plan9", "solaris", "wasip1", "windows", "zos"]

/-- The names of architectures. -/
def knownArches : List String :=
  ["386", "amd64", "amd64p32", "arm", "arm64", "arm64be", "armbe", "loong64", "mips", "mips64",
   "mips64le", "mips64p32", "mips64p32le", "mipsle", "ppc", "ppc64", "ppc64le", "riscv", "riscv64",
   "s390", "s390x", "sparc", "sparc64", "wasm"]

/-- The operating systems that satisfy the tag `unix`. -/
def unixOses : List String :=
  ["aix", "android", "darwin", "dragonfly", "freebsd", "hurd", "illumos", "ios", "linux", "netbsd",
   "openbsd", "solaris"]

/-- The operating systems that also count as another one, with that other one. -/
def osImplications : List (String × String) :=
  [("android", "linux"), ("illumos", "solaris"), ("ios", "darwin")]

/-- The tag that holds when cgo is enabled. -/
def cgoTag : String := "cgo"

/-- The tag that holds on the operating systems of `unixOses`. -/
def unixTag : String := "unix"

/-- The name of the standard compiler. -/
def gcCompiler : String := "gc"

/-- The name of the other compiler. -/
def gccgoCompiler : String := "gccgo"

/-- The beginning of the tags that experiments set. -/
def experimentMark : String := "goexperiment."

/-- The name is that of an operating system. -/
def isKnownOs (name : String) : Bool := knownOses.contains name

/-- The name is that of an architecture. -/
def isKnownArch (name : String) : Bool := knownArches.contains name

/-- The name is that of an operating system that satisfies the tag `unix`. -/
def isUnixOs (name : String) : Bool := unixOses.contains name

/-- The name is that of a compiler. -/
def isCompiler (name : String) : Bool := name = gcCompiler || name = gccgoCompiler

/-- The tag is one that an experiment sets. -/
def isExperimentTag (name : String) : Bool := experimentMark.toList.isPrefixOf name.toList

/-- The operating system as which `os` also counts, if there is one. -/
def impliedOs? (os : String) : Option String := osImplications.lookup os

/-- The operating systems that count as `os`: `os` itself first. -/
def acceptedOses (os : String) : List String :=
  os :: (osImplications.filter (·.2 = os)).map (·.1)

end GoBuild
