import GoBuild.Json.Token

/-!
# Reading JSON texts

The value of a JSON text is built by a machine (`Reader`) folded over its tokens. Its state holds the
arrays and objects that are open, innermost first, and says what may come next. A text holds exactly
one value.
-/

namespace GoBuild.Json

/-- The members of an object, last one first. -/
abbrev Members := List (Option String × Json)

/-- An array or object that is open, with what is read of it, last part first. -/
inductive Frame where
  | items (read : List Json)
  /-- The value of the member `name` is being read. -/
  | member (read : Members) (name : Option String)

/-- What may come next. -/
inductive Phase where
  | value
  /-- An item or the end of the array just opened. -/
  | firstItem
  /-- A name, or the end of the object if it has just been opened. -/
  | name (read : Members) (justOpened : Bool)
  /-- The colon after a name. -/
  | colon (read : Members) (name : Option String)
  /-- What follows the complete value `v`. -/
  | complete (v : Json)

/-- The state of reading. -/
structure Reader where
  frames : List Frame := []
  phase : Phase := .value

namespace Reader

/-- Reads a token where a value stands. -/
def readValue (frames : List Frame) : Token → Option Reader
  | .null => some ⟨frames, .complete .null⟩
  | .bool b => some ⟨frames, .complete (.bool b)⟩
  | .number text => some ⟨frames, .complete (.number text)⟩
  | .string text => some ⟨frames, .complete (.string text)⟩
  | .openArray => some ⟨frames, .firstItem⟩
  | .openObject => some ⟨frames, .name [] true⟩
  | _ => none

/-- Reads a token after the complete value `v`. -/
def readAfter (frames : List Frame) (v : Json) (t : Token) : Option Reader :=
  match t, frames with
  | .comma, .items read :: outer => some ⟨.items (v :: read) :: outer, .value⟩
  | .closeArray, .items read :: outer => some ⟨outer, .complete (.array (v :: read).reverse)⟩
  | .comma, .member read name :: outer => some ⟨outer, .name ((name, v) :: read) false⟩
  | .closeObject, .member read name :: outer =>
    some ⟨outer, .complete (.object ((name, v) :: read).reverse)⟩
  | _, _ => none

/-- Reads one token. -/
def step (r : Reader) (t : Token) : Option Reader :=
  match r.phase, t with
  | .value, t => readValue r.frames t
  | .firstItem, .closeArray => some ⟨r.frames, .complete (.array [])⟩
  | .firstItem, t => readValue (.items [] :: r.frames) t
  | .name _ true, .closeObject => some ⟨r.frames, .complete (.object [])⟩
  | .name read _, .string name => some ⟨r.frames, .colon read name⟩
  | .name .., _ => none
  | .colon read name, .colon => some ⟨.member read name :: r.frames, .value⟩
  | .colon .., _ => none
  | .complete v, t => readAfter r.frames v t

/-- The value of the whole text. -/
def finish (r : Reader) : Option Json :=
  match r.phase, r.frames with
  | .complete v, [] => some v
  | _, _ => none

end Reader

/-- The value of a JSON text. -/
def parse? (text : String) : Option Json := do
  let tokens ← tokens? text.toList
  let r ← tokens.foldlM Reader.step {}
  r.finish

end GoBuild.Json
