import GoBuild.Platform.Host
import GoBuild.Platform.Table

/-!
# Build targets

The platforms that builds can target and the order in which to try them: a table of platforms in
order of preference and the host whose platform comes first. What is asked of the table (which
architectures go with an operating system, which pairs support cgo, which value completes a pair) is
looked up in an index, to which the table is added row by row (`PlatformIndex.ofTable`).
-/

namespace GoBuild

/-- The names with one more at the end, unless it is there already. -/
def addName (names : List String) (name : String) : List String :=
  if name ∈ names then names else names ++ [name]

/-- Puts a name under a key. -/
def addUnder (key name : String) : List (String × List String) → List (String × List String)
  | [] => [(key, [name])]
  | (k, names) :: rest =>
    if k = key then (k, addName names name) :: rest else (k, names) :: addUnder key name rest

/-- What is looked up about a table of platforms: the architectures under each operating system, the
operating systems under each architecture, and the pairs that support cgo. -/
structure PlatformIndex where
  arches : List (String × List String) := []
  oses : List (String × List String) := []
  cgoPairs : List (String × String) := []

namespace PlatformIndex

/-- Adds a row of the table. -/
def addRow (ix : PlatformIndex) (row : Platform) : PlatformIndex where
  arches := addUnder row.os row.arch ix.arches
  oses := addUnder row.arch row.os ix.oses
  cgoPairs := if row.cgo then ix.cgoPairs.insert (row.os, row.arch) else ix.cgoPairs

/-- The index of a table. -/
def ofTable (table : List Platform) : PlatformIndex := table.foldl addRow {}

end PlatformIndex

/-- The platforms that builds can target, in order of preference, and the preferred host. -/
structure Targets where
  table : List Platform
  host : Host

namespace Targets

/-- The platforms of the newest release, as seen from `host`. -/
def default (host : Host) : Targets := ⟨Platform.defaultTable, host⟩

/-- The targets of a machine on which nothing is configured. -/
def builtin : Targets := default Host.detected

/-- The operating systems that are preferred to the others of a table. -/
def firstOses : List String := ["darwin", "linux", "windows", "openbsd", "freebsd", "netbsd"]

/-- The architectures that are preferred to the others of a table. -/
def firstArches : List String := ["amd64", "arm64", "arm", "386", "ppc64"]

/-- The names of the list without the empty one, each once, in the order of first occurrence. -/
def distinctNames (names : List String) : List String := (names.filter (· ≠ "")).eraseDups

/-- The operating systems to try: that of the host, the preferred ones, those of the table. -/
def preferredOses (t : Targets) : List String :=
  distinctNames (t.host.os :: (firstOses ++ t.table.map (·.os)))

/-- The architectures to try: that of the host, the preferred ones, those of the table. -/
def preferredArches (t : Targets) : List String :=
  distinctNames (t.host.arch :: (firstArches ++ t.table.map (·.arch)))

/-- The index of the table. -/
def index (t : Targets) : PlatformIndex := .ofTable t.table

/-- The architectures that go with an operating system of the table, in the order of its rows. -/
def archesFor? (t : Targets) (os : String) : Option (List String) := t.index.arches.lookup os

/-- The operating systems that go with an architecture of the table, in the order of its rows. -/
def osesFor? (t : Targets) (arch : String) : Option (List String) := t.index.oses.lookup arch

/-- The pair is in the table. -/
def isValid (t : Targets) (os arch : String) : Bool := (t.archesFor? os).any (·.contains arch)

/-- The table has the pair in a row that supports cgo. -/
def supportsCgo (t : Targets) (os arch : String) : Bool := t.index.cgoPairs.contains (os, arch)

/-- The value for the other half of a pair of which one half is settled: `current` if it is among
the `valid` ones, else the first valid one in the order of preference. -/
def complete? (valid : List String) (current : String) (preferred : List String) : Option String :=
  if valid.contains current then some current
  else (preferred.find? valid.contains).or valid.head?

/-- An architecture that goes with `os`: `current` if the pair is in the table or the table has no
row for `os`. -/
def supportedArch? (t : Targets) (os current : String) : Option String :=
  match t.archesFor? os with
  | none => some current
  | some valid => complete? valid current t.preferredArches

/-- An operating system that goes with `arch`: `current` if the pair is in the table or the table has
no row for `arch`. -/
def supportedOs? (t : Targets) (arch current : String) : Option String :=
  match t.osesFor? arch with
  | none => some current
  | some valid => complete? valid current t.preferredOses

end Targets

end GoBuild
