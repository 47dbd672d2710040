import GoBuild.Context.Satisfies
import GoBuild.Search.Placement

/-!
# The problem of a search

What one search works on: the constraint of a file, the platform its name demands, the targets, and
the context to start from, which has been placed already (`Problem`). A search never changes tags
that mean something to the toolchain (`Problem.isInternal`). Of the others it sets those that the
constraint mentions to the value that their first occurrence asks for; with all of them set so, the
context is the adjusted one (`Problem.adjusted`).
-/

namespace GoBuild

/-- What one search works on. -/
structure Problem where
  targets : Targets
  expr : Expr
  mandate : Source.Mandate
  base : Context

namespace Problem

/-- The constraint holds in the context. -/
def holds (p : Problem) (c : Context) : Bool := c.holds p.expr

/-- The context, if the constraint holds in it. -/
def accept? (p : Problem) (c : Context) : Option Context := if p.holds c then some c else none

/-- The mentioned tags that satisfy `choose`, in order, with the direction of their first
occurrence. -/
def polarities (p : Problem) (choose : String → Bool) : List (String × Polarity) :=
  (p.expr.tags.toList.filter choose).filterMap fun t => (p.expr.lookup t).map (t, ·)

/-- The tag means something to the toolchain in the base context, so it is no tag of the user. -/
def isInternal (p : Problem) (t : String) : Bool :=
  isCompiler t || isKnownOs t || isKnownArch t || isExperimentTag t || isReleaseTag t
    || t = cgoTag || t = unixTag
    || p.base.toolTags.contains t || p.base.releaseTags.contains t

/-- The mentioned tags of the user, with the direction of their first occurrence. -/
def ordinaryTags (p : Problem) : List (String × Polarity) := p.polarities fun t => !p.isInternal t

/-- The context with each mentioned experiment as its first occurrence asks for. -/
def withExperiments (p : Problem) (c : Context) : Context :=
  (p.polarities isExperimentTag).foldl (fun c (t, d) => c.setToolTag t d.isPositive) c

/-- The context with each mentioned tag of the user as its first occurrence asks for. -/
def withOrdinaryTags (p : Problem) (c : Context) : Context :=
  p.ordinaryTags.foldl (fun c (t, d) => c.setBuildTag t d.isPositive) c

/-- The base context with each experiment and tag of the user as its first occurrence asks for. -/
def adjusted (p : Problem) : Context := p.withOrdinaryTags (p.withExperiments p.base)

/-- The constraint mentions an operating system, or the tag `unix`. -/
def mentionsOs (p : Problem) : Bool := p.expr.atoms.any fun t => isKnownOs t || t = unixTag

/-- The constraint mentions an architecture. -/
def mentionsArch (p : Problem) : Bool := p.expr.atoms.any isKnownArch

/-- The constraint mentions cgo. -/
def mentionsCgo (p : Problem) : Bool := p.expr.mentions cgoTag

end Problem

end GoBuild
