/-!
# JSON values

The values of JSON texts. The members of an object stay in their order, with repeated names. A
string whose escapes name half of a surrogate pair without the other half is no text (`none`): such
a string may stand where nobody looks at it. Numbers are kept as written.
-/

namespace GoBuild

/-- A JSON value. -/
inductive Json where
  | null
  | bool (value : Bool)
  | number (text : List Char)
  | string (text : Option String)
  | array (items : List Json)
  | object (members : List (Option String × Json))
deriving Inhabited

namespace Json

/-- The value of a text. -/
def text (s : String) : Json := .string (some s)

/-- The value of a list of texts. -/
def texts (ss : List String) : Json := .array (ss.map text)

/-- The value of an object with the given members. -/
def record (members : List (String × Json)) : Json :=
  .object (members.map fun (name, value) => (some name, value))

/-- The truth value. -/
def asBool? : Json → Option Bool
  | bool value => some value
  | _ => none

/-- The text of a string. -/
def asText? : Json → Option String
  | string text => text
  | _ => none

/-- The texts of an array of strings. -/
def asTexts? : Json → Option (List String)
  | array items => items.mapM asText?
  | _ => none

end Json

end GoBuild
