import GoBuild.Search.Config
import GoBuild.Search.Error
import GoBuild.Search.PlatformWalk

/-!
# Steps of the search

The ways to find a context in which a constraint holds, in the order in which they are tried
(`Step.order`). Small changes come first: none, then tags, then cgo, then the platform. Between them
stand two gates, which end the search if what the toolchain fixes rules the file out, whatever the
other tags.
-/

namespace GoBuild

/-- The context that a step starts from. -/
inductive Seed where
  /-- The base context of the problem. -/
  | base
  /-- The adjusted context of the problem. -/
  | adjusted
deriving DecidableEq

/-- A step of the search. -/
inductive Step where
  /-- Changes nothing. -/
  | direct
  /-- Sets or clears all experiments. -/
  | experiments
  /-- Sets or clears one tag of the user. -/
  | singleTag
  /-- Sets or clears all experiments and tags of the user. -/
  | allTags
  /-- Fails if the release rules the file out. -/
  | releaseGate
  /-- Fails if the compiler rules the file out. -/
  | compilerGate
  /-- Changes cgo. -/
  | cgo (seed : Seed)
  /-- Tries other platforms. -/
  | platform (seed : Seed)
deriving DecidableEq

/-- The order of the steps. -/
def Step.order : List Step :=
  [.direct, .experiments, .singleTag, .allTags, .releaseGate, .compilerGate, .cgo .base,
   .platform .base, .cgo .adjusted, .platform .adjusted]

/-- The steps from a seed may run: those from the adjusted context need leave to change tags. -/
def Config.allowsSeed (config : Config) : Seed → Bool
  | .base => true
  | .adjusted => config.toggleTags

/-- The step may run. -/
def Config.allows (config : Config) : Step → Bool
  | .direct | .releaseGate | .compilerGate => true
  | .experiments | .singleTag | .allTags => config.toggleTags
  | .cgo seed => config.toggleCgo && config.allowsSeed seed
  | .platform seed => config.searchPlatforms && config.allowsSeed seed

namespace Problem

/-- The context of a seed; the adjusted context only if it differs from the base. -/
def seed? (p : Problem) : Seed → Option Context
  | .base => some p.base
  | .adjusted => if p.adjusted = p.base then none else some p.adjusted

/-- The context with a change, if there is one and the constraint holds after it. -/
def acceptChanged? (p : Problem) (c : Context) : Option Context :=
  if c = p.base then none else p.accept? c

/-- The base context with all experiments as the constraint asks for. -/
def tryExperiments (p : Problem) : Option Context := p.acceptChanged? (p.withExperiments p.base)

/-- The base context with one tag of the user as the constraint asks for, the first that helps. -/
def trySingleTag (p : Problem) : Option Context :=
  p.ordinaryTags.findSome? fun (t, d) => p.acceptChanged? (p.base.setBuildTag t d.isPositive)

/-- The context with cgo changed; cgo is enabled only where it is supported. -/
def tryCgo (p : Problem) (c : Context) : Option Context :=
  if p.mentionsCgo && (c.cgo || p.targets.supportsCgo c.os c.arch) then
    p.accept? { c with cgo := !c.cgo }
  else none

/-- The value of a release tag in the base context; other tags are open. -/
def releaseValue (p : Problem) (t : String) : Option Bool :=
  if isReleaseTag t then some (p.base.hasTag t) else none

/-- The release tag to name when the release rules the file out: the first whose value is not the one
asked for, else the first. -/
def blamedRelease (p : Problem) : String :=
  let releases := p.polarities isReleaseTag
  ((releases.find? fun (t, d) => d.isPositive != p.base.hasTag t).or releases.head?).elim "" (·.1)

/-- Fails if the constraint is false whatever the values of the tags that are no release tags. -/
def passRelease (p : Problem) : Except MatchFault Unit :=
  if p.expr.partialEval p.releaseValue = some false then .error (.impossibleVersion p.blamedRelease)
  else .ok ()

/-- The value of a compiler's name in the base context; other tags are open. -/
def compilerValue (p : Problem) (t : String) : Option Bool :=
  if isCompiler t then some (p.base.satisfies t) else none

/-- The other one of the two compilers. -/
def otherCompiler? (compiler : String) : Option String :=
  if compiler = gcCompiler then some gccgoCompiler
  else if compiler = gccgoCompiler then some gcCompiler
  else none

/-- Fails if the constraint is false whatever the values of the tags that are no compilers. -/
def passCompiler (p : Problem) : Except MatchFault Unit :=
  match otherCompiler? p.base.compiler with
  | none => .ok ()
  | some other =>
    if p.expr.partialEval p.compilerValue = some false then
      if p.expr.lookup other = some .positive then .error (.compilerMismatch other)
      else .error (.compilerNegated p.base.compiler)
    else .ok ()

/-- The result of a step: a context, or none to go on with the next step, or a failure. -/
def run (p : Problem) : Step → Except MatchFault (Option Context)
  | .direct => .ok (p.accept? p.base)
  | .experiments => .ok p.tryExperiments
  | .singleTag => .ok p.trySingleTag
  | .allTags => .ok (p.accept? p.adjusted)
  | .releaseGate => p.passRelease.map fun _ => none
  | .compilerGate => p.passCompiler.map fun _ => none
  | .cgo seed => .ok ((p.seed? seed).bind p.tryCgo)
  | .platform seed => .ok ((p.seed? seed).bind p.walkPlatforms)

/-- The result of the first step that finds a context or fails. -/
def runAll (p : Problem) : List Step → Except MatchFault Context
  | [] => .error .noMatch
  | step :: rest =>
    match p.run step with
    | .error fault => .error fault
    | .ok (some c) => .ok c
    | .ok none => p.runAll rest

end Problem

end GoBuild
