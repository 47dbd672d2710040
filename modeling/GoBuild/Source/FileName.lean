import GoBuild.Platform.Names

/-!
# File names that name a platform

A file whose name ends in `_os`, `_arch` or `_os_arch`, not counting a last `_test` and what follows
the first point, is meant for that platform only (`Mandate`).
-/

namespace GoBuild.Source

/-- The platform that a file name demands. -/
structure Mandate where
  os : Option String := none
  arch : Option String := none
deriving DecidableEq

namespace Mandate

/-- The file name demands nothing. -/
def isEmpty (m : Mandate) : Bool := m.os.isNone && m.arch.isNone

/-- The demanded names, the operating system first. -/
def tags (m : Mandate) : List String := m.os.toList ++ m.arch.toList

/-- The character separates the components of a path. -/
def isSeparator (c : Char) : Bool := c = '/' || c = '\\'

/-- The last component of a path, up to its first point. -/
def stem (path : List Char) : List Char :=
  (path.reverse.takeWhile fun c => !isSeparator c).reverse.takeWhile (· ≠ '.')

/-- The parts between underscores that follow the first underscore of a stem, without a last part
`test`. -/
def suffixes (stem : List Char) : List String :=
  let parts := ((stem.splitOn '_').drop 1).map String.ofList
  if parts.getLast? = some "test" then parts.dropLast else parts

/-- The demand of the parts, last one first. -/
def ofReversedSuffixes : List String → Mandate
  | [] => {}
  | [last] =>
    if isKnownOs last then { os := last }
    else if isKnownArch last then { arch := last }
    else {}
  | last :: previous :: _ =>
    if isKnownOs previous && isKnownArch last then { os := previous, arch := last }
    else if isKnownOs last then { os := last }
    else if isKnownArch last then { arch := last }
    else {}

/-- The platform that the file name of a path demands. -/
def ofPath (path : String) : Mandate :=
  ofReversedSuffixes (suffixes (stem path.toList)).reverse

end Mandate

end GoBuild.Source
