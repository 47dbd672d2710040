/-!
# TOML documents

The values of TOML documents. Numbers and dates are kept without their contents, since only their
form decides whether a document is well formed. A table remembers how it came to be
(`Toml.Origin`), because that decides how it may grow.
-/

namespace GoBuild

namespace Toml

/-- How a table came to be. -/
inductive Origin where
  /-- A header names it. -/
  | header
  /-- A header names a table inside it. -/
  | parent
  /-- A dotted key goes through it. -/
  | dotted
  /-- It is a value between braces. -/
  | inline
deriving DecidableEq

end Toml

/-- A value of a TOML document. -/
inductive Toml where
  | text (s : String)
  | bool (b : Bool)
  | number
  | dateTime
  | array (items : List Toml)
  | table (origin : Toml.Origin) (entries : List (String × Toml))
  /-- The tables of an array that headers in double brackets fill, last one first. -/
  | tables (elements : List (List (String × Toml)))
deriving Inhabited

namespace Toml

/-- The entries of a table, last one first; no key occurs twice. -/
abbrev Entries := List (String × Toml)

/-- The truth value. -/
def asBool? : Toml → Option Bool
  | bool b => some b
  | _ => none

/-- The text of a string. -/
def asText? : Toml → Option String
  | text s => some s
  | _ => none

/-- How deep values may be nested and how long dotted keys may be: less than this. -/
def depthBound : Nat := 80

end Toml

end GoBuild
