import GoBuild.Json.Basic

/-!
# Records as JSON

A record with named fields is written as an object, where every field stands at most once and other
members are passed over, or as an array of its fields in order, of which the last ones may be left
out.
-/

namespace GoBuild.Json

/-- The names of the members, if all of them are texts. -/
def names? (members : List (Option String × Json)) : Option (List String) :=
  members.mapM (·.1)

/-- The value of a field in an object; it stands in none or one of the members. -/
def field? (members : List (Option String × Json)) (name : String) : Option (Option Json) :=
  match members.filter fun m => decide (m.1 = some name) with
  | [] => some none
  | [m] => some (some m.2)
  | _ :: _ :: _ => none

/-- The values of the fields of a record, in the order of `names`. -/
def fields? (names : List String) : Json → Option (List (Option Json))
  | .object members => do
    let _ ← names? members
    names.mapM (field? members)
  | .array items =>
    if items.length ≤ names.length then
      some (items.map some ++ List.replicate (names.length - items.length) none)
    else none
  | _ => none

/-- The value of a field that may be left out. -/
def optional? {α : Type} (read : Json → Option α) (default : α) : Option Json → Option α
  | none => some default
  | some v => read v

/-- The value of a field that has to be there. -/
def required? {α : Type} (read : Json → Option α) : Option Json → Option α
  | none => none
  | some v => read v

end GoBuild.Json
