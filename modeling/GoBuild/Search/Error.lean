import GoBuild.Directive.Error

/-!
# Failures of the search

Why no build context was found for a file. Some causes are permanent: they do not depend on the
context from which the search started.
-/

namespace GoBuild

/-- Why no context was found. -/
inductive MatchFault where
  /-- The directives of the file cannot be read. -/
  | unreadable (error : ConstraintError)
  /-- The release of the toolchain, by the release tag given, rules the file out. -/
  | impossibleVersion (tag : String)
  /-- The file demands the other compiler. -/
  | compilerMismatch (required : String)
  /-- The file excludes the compiler. -/
  | compilerNegated (compiler : String)
  /-- No step of the search found a context. -/
  | noMatch
deriving DecidableEq

namespace MatchFault

/-- The text of a cause. -/
def message : MatchFault → String
  | unreadable error => error.message
  | impossibleVersion tag => "cannot satisfy go version: " ++ tag
  | compilerMismatch required => "compiler mismatch: " ++ required
  | compilerNegated compiler => "compiler negated: " ++ compiler
  | noMatch => "cannot match context to file"

/-- Another starting context would not help. -/
def isPermanent : MatchFault → Bool
  | impossibleVersion _ | compilerMismatch _ | compilerNegated _ => true
  | unreadable _ | noMatch => false

end MatchFault

/-- The failure to find a context for the file at `path`. -/
structure MatchError where
  path : String
  fault : MatchFault
deriving DecidableEq

namespace MatchError

/-- The text of a failure. -/
def message (e : MatchError) : String := "cannot match " ++ e.path ++ ": " ++ e.fault.message

/-- Another starting context would not help. -/
def isPermanent (e : MatchError) : Bool := e.fault.isPermanent

end MatchError

end GoBuild
