import GoBuild.Context.Basic
import GoBuild.Platform.Targets
import GoBuild.Source.FileName

/-!
# Placing a context on the platform of a file name

The search treats the platform that a file name demands as fixed: a context is moved onto it once
(`Mandate.place`), changing no more than it has to, and later moves stay with what the name allows
(`Mandate.allowsOs`, `Mandate.allowsArch`).
-/

namespace GoBuild.Source.Mandate

/-- The operating systems that the file name allows, if it demands one. -/
def acceptedOses? (m : Mandate) : Option (List String) := m.os.map acceptedOses

/-- The file name allows the operating system. -/
def allowsOs (m : Mandate) (os : String) : Bool :=
  match m.os with
  | none => true
  | some demanded => (acceptedOses demanded).contains os

/-- The file name allows the architecture. -/
def allowsArch (m : Mandate) (arch : String) : Bool :=
  match m.arch with
  | none => true
  | some demanded => demanded = arch

/-- The operating system `os` if the file name allows it, else the one it demands. -/
def settleOs (m : Mandate) (os : String) : String :=
  if m.allowsOs os then os else m.os.getD os

/-- The architecture that the file name demands, else `arch`. -/
def settleArch (m : Mandate) (arch : String) : String := m.arch.getD arch

theorem allowsOs_settleOs (m : Mandate) (os : String) : m.allowsOs (m.settleOs os) = true := by
  unfold settleOs
  split
  · assumption
  · rename_i h
    cases hm : m.os with
    | none => simp [allowsOs, hm] at h
    | some demanded => simp [allowsOs, hm, acceptedOses]

theorem allowsArch_settleArch (m : Mandate) (arch : String) :
    m.allowsArch (m.settleArch arch) = true := by
  cases hm : m.arch <;> simp [allowsArch, settleArch, hm]

/-- The platform on which a context for `os` and `arch` is placed: what the file name demands, and
for the other half of the pair, if it demands only one, a value that goes with it. -/
def settle (m : Mandate) (t : Targets) (os arch : String) : String × String :=
  match m.os, m.arch with
  | some _, none => (m.settleOs os, (t.supportedArch? (m.settleOs os) arch).getD arch)
  | none, some demanded => ((t.supportedOs? demanded os).getD os, demanded)
  | _, _ => (m.settleOs os, m.settleArch arch)

/-- The context with the platform `os`, `arch`; a move onto a platform without cgo disables cgo. -/
def moveTo (t : Targets) (c : Context) (os arch : String) : Context :=
  { c with
    os, arch
    cgo := c.cgo && ((os = c.os && arch = c.arch) || t.supportsCgo os arch) }

/-- The context on a platform that the file name allows. -/
def place (m : Mandate) (t : Targets) (c : Context) : Context :=
  moveTo t c (m.settle t c.os c.arch).1 (m.settle t c.os c.arch).2

end GoBuild.Source.Mandate
