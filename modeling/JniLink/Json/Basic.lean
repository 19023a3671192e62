/-!
# JSON values

The values that a JSON document spells. Members keep their order, and repeated names stay: what they
mean is up to the reader of a particular document. A string whose escapes leave a surrogate without
its partner is no text; it is kept as `none`, since it may well stand where nobody looks.
-/

namespace JniLink

/-- A JSON value. -/
inductive Json where
  | null
  | boolean (b : Bool)
  /-- A number by the text that writes it. -/
  | number (text : String)
  | string (text : Option String)
  | array (elements : List Json)
  | object (members : List (Option String × Json))
  deriving Repr, Inhabited

namespace Json

/-- A string value. -/
def ofText (text : String) : Json := .string (some text)

/-- An object with members of the given names. -/
def ofMembers (members : List (String × Json)) : Json :=
  .object (members.map fun (name, value) => (some name, value))

/-- The text of a string. -/
def text? : Json → Option String
  | .string text => text
  | _ => none

/-- A value that may be left open with `null`. -/
def nullable? {α : Type} (read : Json → Option α) : Json → Option (Option α)
  | .null => some none
  | value => (read value).map some

/-- The elements of an array, each one read. -/
def list? {α : Type} (read : Json → Option α) : Json → Option (List α)
  | .array elements => elements.mapM read
  | _ => none

/-- The value of a member, if there is one; a repeated member is refused. -/
def member? (members : List (Option String × Json)) (name : String) : Option (Option Json) :=
  match members.filter (·.1 = some name) with
  | [] => some none
  | [(_, value)] => some (some value)
  | _ :: _ :: _ => none

/-- The fields of a record, in the order of their names. A record is an object, in which other
members are passed over, or the array of its fields, in which the last ones may be missing. -/
def fields? (names : List String) : Json → Option (List (Option Json))
  | .object members =>
    if members.all (·.1.isSome) then names.mapM (member? members) else none
  | .array elements =>
    if elements.length ≤ names.length then
      some (elements.map some ++ List.replicate (names.length - elements.length) none)
    else none
  | _ => none

/-- A field that has to be there. -/
def required? {α : Type} (read : Json → Option α) : Option Json → Option α
  | some value => read value
  | none => none

/-- A field that has a value of its own when it is missing. -/
def optional? {α : Type} (default : α) (read : Json → Option α) : Option Json → Option α
  | some value => read value
  | none => some default

end Json

end JniLink
