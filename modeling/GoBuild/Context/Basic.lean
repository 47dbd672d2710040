import GoBuild.Platform.Host
import GoBuild.Platform.Release
import GoBuild.TagSet

/-!
# Build contexts

What a build is configured with: the platform, the compiler, whether cgo is enabled, and the tags
set by the user, by the toolchain and by its release. Two contexts are equal exactly if all seven
parts are, and sets of tags are equal if they have the same members.
-/

namespace GoBuild

/-- The configuration of a build. -/
structure Context where
  os : String := ""
  arch : String := ""
  compiler : String := ""
  cgo : Bool := false
  /-- The tags set by the user. -/
  buildTags : TagSet := .empty
  /-- The tags set by the toolchain, such as those of experiments. -/
  toolTags : TagSet := .empty
  /-- The tags of the release and those before it. -/
  releaseTags : TagSet := .empty
deriving DecidableEq, Inhabited

namespace Context

/-- The release tags through `minor`, as a set. -/
def releasesThrough (minor : Nat) : TagSet := .ofList (releaseTagsThrough minor)

/-- The context of a platform, for the standard compiler of the newest release. -/
def ofPlatform (os arch : String) : Context :=
  { os, arch, compiler := gcCompiler, releaseTags := releasesThrough latestMinor }

/-- The context of a host. -/
def ofHost (host : Host) : Context :=
  { ofPlatform host.os host.arch with compiler := host.compiler }

/-- The platform as text. -/
def platformName (c : Context) : String := c.os ++ "/" ++ c.arch

/-- The context with its empty names taken from the host. -/
def fill (c : Context) (host : Host) : Context :=
  { c with
    os := if c.os = "" then host.os else c.os
    arch := if c.arch = "" then host.arch else c.arch
    compiler := if c.compiler = "" then host.compiler else c.compiler }

/-- The context with a user tag set or cleared. -/
def setBuildTag (c : Context) (t : String) (on : Bool) : Context :=
  { c with buildTags := c.buildTags.set t on }

/-- The context with a tag of the toolchain set or cleared. -/
def setToolTag (c : Context) (t : String) (on : Bool) : Context :=
  { c with toolTags := c.toolTags.set t on }

/-- The tag is in one of the three sets of tags. -/
def hasTag (c : Context) (t : String) : Bool :=
  c.buildTags.contains t || c.toolTags.contains t || c.releaseTags.contains t

end Context

end GoBuild
