import GoBuild.Context.Basic
import GoBuild.Expr.Basic

/-!
# Tags that hold in a context

A tag holds in a context if it names the context's operating system, architecture or compiler, or an
operating system as which that of the context also counts, if it is `cgo` and cgo is enabled, or if
it is in one of the sets of tags. From the release `go1.19` on, `unix` holds on the systems of its
kind, and `boringcrypto` stands for the experiment of that name.
-/

namespace GoBuild

/-- The release from which on the tags with a meaning of their own are known. -/
def aliasRelease : String := "go1.19"

/-- The old name of the experiment `boringcryptoExperiment`. -/
def boringcryptoTag : String := "boringcrypto"

/-- The tag of the experiment that `boringcrypto` stands for. -/
def boringcryptoExperiment : String := "goexperiment.boringcrypto"

namespace Context

/-- The release of the context knows the tags `unix` and `boringcrypto`. -/
def knowsAliases (c : Context) : Bool := c.releaseTags.contains aliasRelease

/-- The tag holds in the context. -/
def satisfies (c : Context) (t : String) : Bool :=
  (c.cgo && t = cgoTag)
    || (t = c.os || t = c.arch || t = c.compiler)
    || impliedOs? c.os = some t
    || (c.knowsAliases && t = unixTag && isUnixOs c.os)
    || (c.knowsAliases && t = boringcryptoTag && c.hasTag boringcryptoExperiment)
    || c.hasTag t

/-- The expression holds in the context. -/
def holds (c : Context) (x : Expr) : Bool := x.eval c.satisfies

end Context

end GoBuild
