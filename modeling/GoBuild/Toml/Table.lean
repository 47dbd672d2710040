import GoBuild.Toml.Basic

/-!
# Growing TOML tables

How keys and headers put entries into tables. A key may be set once. A dotted key may add to tables
that came to be by dotted keys, and a header may open a table that came to be only as the parent of
another one; a table between braces is complete.
-/

namespace GoBuild.Toml

/-- The entries with the value of `key` replaced. -/
def replaceEntry (key : String) (value : Toml) : Entries → Entries
  | [] => []
  | (k, v) :: rest => if k = key then (k, value) :: rest else (k, v) :: replaceEntry key value rest

/-- Adds the entry `key` to the table at `path`, the keys before it in a dotted key. -/
def addDotted (path : List String) (key : String) (value : Toml) (entries : Entries) :
    Option Entries :=
  match path with
  | [] =>
    match entries.lookup key with
    | none => some ((key, value) :: entries)
    | some _ => none
  | k :: rest =>
    match entries.lookup k with
    | none => (addDotted rest key value []).map fun es => (k, .table .dotted es) :: entries
    | some (.table origin es) =>
      if origin = .dotted || (origin = .parent && !rest.isEmpty) then
        (addDotted rest key value es).map fun es => replaceEntry k (.table origin es) entries
      else none
    | some (.tables (last :: before)) =>
      if rest.isEmpty then none
      else
        (addDotted rest key value last).map fun es =>
          replaceEntry k (.tables (es :: before)) entries
    | some _ => none

/-- Changes the table that the header `path` names. On the way, missing tables are made, and in an
array of tables the last one is taken. -/
def changeAt (path : List String) (change : Entries → Option Entries) (entries : Entries) :
    Option Entries :=
  match path with
  | [] => change entries
  | k :: rest =>
    match entries.lookup k with
    | none => (changeAt rest change []).map fun es => (k, .table .parent es) :: entries
    | some (.table .inline _) => none
    | some (.table origin es) =>
      (changeAt rest change es).map fun es => replaceEntry k (.table origin es) entries
    | some (.tables (last :: before)) =>
      (changeAt rest change last).map fun es => replaceEntry k (.tables (es :: before)) entries
    | some _ => none

/-- Opens the table `key` for a header. -/
def openTable (key : String) (entries : Entries) : Option Entries :=
  match entries.lookup key with
  | none => some ((key, .table .header []) :: entries)
  | some (.table .parent es) => some (replaceEntry key (.table .header es) entries)
  | some _ => none

/-- Opens one more table in the array of tables `key` for a header in double brackets. -/
def openElement (key : String) (entries : Entries) : Option Entries :=
  match entries.lookup key with
  | none => some ((key, .tables [[]]) :: entries)
  | some (.tables elements) => some (replaceEntry key (.tables ([] :: elements)) entries)
  | some _ => none

end GoBuild.Toml
