import GoBuild.Text.Numeric
import GoBuild.Text.Trim

/-!
# Release tags

A toolchain of release `1.n` sets the tags `go1.1` to `go1.n`. A tag is recognised as a release tag
with the digits of any script, but names a release by number only if its digits are ASCII and the
number fits in 32 bits.
-/

namespace GoBuild

/-- The beginning of release tags. -/
def releaseMark : List Char := ['g', 'o', '1', '.']

/-- The minor number of the newest release with tags of its own. -/
def latestMinor : Nat := 21

/-- The bound below which minor numbers lie. -/
def minorBound : Nat := Nat.pow 2 32

/-- The tag is the mark of releases followed by one or more decimal digits of any script. -/
def isReleaseTag (name : String) : Bool :=
  match Text.after? releaseMark name.toList with
  | none => false
  | some digits => !digits.isEmpty && digits.all Text.isDecimalDigit

/-- The number that decimal ASCII digits write, first digit first. -/
def decimalValue (digits : List Char) : Nat :=
  digits.foldl (fun n c => 10 * n + (c.toNat - '0'.toNat)) 0

/-- The minor number that one or more ASCII digits write, if it is below the bound. -/
def minorOfDigits? (digits : List Char) : Option Nat :=
  if !digits.isEmpty && digits.all Char.isDigit && decimalValue digits < minorBound then
    some (decimalValue digits)
  else none

/-- The minor number of the release that a tag names. -/
def releaseMinor? (name : String) : Option Nat :=
  if isReleaseTag name then (Text.after? releaseMark name.toList).bind minorOfDigits? else none

/-- The minor number of a release version, which is a release tag with or without its first two
letters. -/
def minorOfVersion? (version : String) : Option Nat :=
  match version.toList with
  | 'g' :: 'o' :: _ => releaseMinor? version
  | cs => releaseMinor? (String.ofList ('g' :: 'o' :: cs))

/-- The release tag with the given minor number. -/
def releaseTag (minor : Nat) : String := String.ofList (releaseMark ++ Nat.toDigits 10 minor)

/-- The release tags through `minor`, oldest first. -/
def releaseTagsThrough (minor : Nat) : List String :=
  (List.range minor).map fun k => releaseTag (k + 1)

/-- The release tags of the newest release. -/
def defaultReleaseTags : List String := releaseTagsThrough latestMinor

end GoBuild
