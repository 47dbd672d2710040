import GoBuild.Context.Satisfies
import GoBuild.Source.FileName
import GoBuild.Source.Header

/-!
# Selecting files

Whether a build context selects a source file. The platform that the file name demands has to hold
as tags (`nameCheck`), and so has the constraint in the header (`headerCheck`). Each check asks for tags
one by one and puts them on record as it goes, and `mentionedTags` is the set of all tags that can matter.
-/

namespace GoBuild

/-- The answer to a question about tags, and the tags it was read from. -/
structure Verdict where
  value : Bool
  consulted : TagSet
deriving DecidableEq

/-- The verdict of questions whose record begins empty. -/
def Verdict.ofRecord (questions : StateM TagSet Bool) : Verdict :=
  let answer := questions.run .empty
  ⟨answer.1, answer.2⟩

/-- All answers are yes. A question is asked also after a no. -/
def askAll {α : Type} (ask : α → StateM TagSet Bool) (xs : List α) : StateM TagSet Bool :=
  xs.foldlM (fun all x => do
    let value ← ask x
    return all && value) true

namespace Context

/-- Whether the tag holds in the context. The tag is put on record whatever the answer. -/
def ask (c : Context) (t : String) : StateM TagSet Bool := do
  modify (·.insert t)
  return c.satisfies t

/-- The value of an expression in the context. -/
def judge (c : Context) (x : Expr) : Verdict := .ofRecord (x.evalM c.ask)

/-- The platform that the file name demands holds in the context. -/
def nameCheck (c : Context) (path : String) : Verdict :=
  .ofRecord (askAll c.ask (Source.Mandate.ofPath path).tags)

/-- The file name admits the context. -/
def admitsName (c : Context) (path : String) : Bool := (c.nameCheck path).value

end Context

/-- The outcome of checking the header of a file. -/
structure HeaderCheck where
  selected : Verdict
  /-- The file is marked as distributed without its source. -/
  binaryOnly : Bool
deriving DecidableEq

/-- The expressions of the `// +build` lines that can be read. -/
def Source.Header.readable (h : Source.Header) : List Expr :=
  h.plusBuild.filterMap fun line => (Directive.parseLine line).toOption

namespace Context

/-- The directives of a header hold in the context: that of the `//go:build` line if there is one,
else all `// +build` lines that can be read. -/
def checkHeader (c : Context) (h : Source.Header) : Except ConstraintError HeaderCheck :=
  match h.goBuild with
  | some line => do
    let x ← Directive.parseLine line
    return ⟨c.judge x, h.binaryOnly⟩
  | none => .ok ⟨.ofRecord (askAll (fun x => x.evalM c.ask) h.readable), h.binaryOnly⟩

/-- The directives of a source file hold in the context. -/
def headerCheck (c : Context) (content : List UInt8) : Except ConstraintError HeaderCheck := do
  let h ← Source.Header.ofContent content
  c.checkHeader h

/-- The context selects the source file. The header of a file is not read if its name rules it out. -/
def selects (c : Context) (path : String) (content : List UInt8) : Except ConstraintError Bool :=
  if c.admitsName path then return (← c.headerCheck content).selected.value else return false

end Context

/-- The directive lines of a header. -/
def Source.Header.directives (h : Source.Header) : List String := h.goBuild.toList ++ h.plusBuild

/-- The tags that the directive lines mention, as far as they can be read. -/
def Source.Header.mentioned (h : Source.Header) : List String :=
  (h.directives.filterMap fun line => (Directive.parseLine line).toOption).flatMap Expr.atoms

/-- The tags that the name and the directives of a file mention. -/
def mentionedTags (path : String) (content : List UInt8) : TagSet :=
  let demanded := (Source.Mandate.ofPath path).tags
  match Source.Header.ofContent content with
  | .ok h => .ofList (demanded ++ h.mentioned)
  | .error _ => .ofList demanded

end GoBuild
