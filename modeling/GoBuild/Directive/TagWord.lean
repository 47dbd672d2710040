import GoBuild.Text.Alphabetic
import GoBuild.Text.Numeric

/-!
# Words that can be tags

The characters of which tags consist, in both forms of directive: letters and numbers of every
script, the underscore and the point.
-/

namespace GoBuild.Directive

/-- The character is a letter or a number of some script. -/
def isAlphanumeric (c : Char) : Bool := Text.isAlphabetic c || Text.isNumeric c

/-- The character can stand in a tag. -/
def isTagChar (c : Char) : Bool := isAlphanumeric c || c = '_' || c = '.'

/-- The word is a tag: it is not empty and all its characters can stand in one. -/
def isTagWord (word : List Char) : Bool := !word.isEmpty && word.all isTagChar

/-- The tag that stands for what can never hold. -/
def ignoreTag : String := "ignore"

end GoBuild.Directive
