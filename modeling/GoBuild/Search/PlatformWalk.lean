import GoBuild.Search.Problem

/-!
# Trying other platforms

The part of the search that leaves the platform of the context it starts from. If the constraint
mentions both halves of the pair, the table is walked in order; if it mentions one half only, the
values of that half are tried in order of preference, each with the values of the other half that go
with it.
-/

namespace GoBuild.Problem

/-- The context on another platform; cgo stays enabled only where it is supported. -/
def retarget (p : Problem) (c : Context) (os arch : String) : Context :=
  { c with os, arch, cgo := c.cgo && p.targets.supportsCgo os arch }

/-- The context on another platform, or the same with cgo changed where the constraint mentions cgo
and the platform supports it, if the constraint holds in it. -/
def tryPlatform (p : Problem) (c : Context) (os arch : String) : Option Context :=
  let moved := p.retarget c os arch
  if p.holds moved then some moved
  else if p.mentionsCgo && p.targets.supportsCgo os arch then
    p.accept? { moved with cgo := !moved.cgo }
  else none

/-- The first platform of the table that helps, without that of the context. -/
def walkTable (p : Problem) (c : Context) : Option Context :=
  (p.targets.table.filter fun row =>
      !(row.os = c.os && row.arch = c.arch)
        && (p.mandate.allowsOs row.os && p.mandate.allowsArch row.arch)).findSome? fun row =>
    p.tryPlatform c row.os row.arch

/-- The values that may complete a pair: `current` if it goes with the other half or the other half
is not in the table, else all that go with it, in order of preference. -/
def counterparts (valid : Option (List String)) (current : String) (preferred : List String) :
    List String :=
  match valid with
  | none => [current]
  | some values => if values.contains current then [current] else preferred.filter values.contains

/-- The first operating system that helps, each with the architectures that go with it. -/
def walkOses (p : Problem) (c : Context) : Option Context :=
  let arches := p.targets.preferredArches
  (p.targets.preferredOses.filter fun os => os ≠ c.os && p.mandate.allowsOs os).findSome? fun os =>
    ((counterparts (p.targets.archesFor? os) c.arch arches).filter p.mandate.allowsArch).findSome?
      fun arch => p.tryPlatform c os arch

/-- The first architecture that helps, each with the operating systems that go with it. -/
def walkArches (p : Problem) (c : Context) : Option Context :=
  let oses := p.targets.preferredOses
  (p.targets.preferredArches.filter fun arch =>
      arch ≠ c.arch && p.mandate.allowsArch arch).findSome? fun arch =>
    ((counterparts (p.targets.osesFor? arch) c.os oses).filter p.mandate.allowsOs).findSome?
      fun os => p.tryPlatform c os arch

/-- The context on the first other platform that helps; a constraint that mentions no platform is
not helped by any. -/
def walkPlatforms (p : Problem) (c : Context) : Option Context :=
  match p.mentionsOs, p.mentionsArch with
  | true, true => p.walkTable c
  | true, false => p.walkOses c
  | false, true => p.walkArches c
  | false, false => none

end GoBuild.Problem
