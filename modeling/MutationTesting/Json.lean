/-!
# JSON values

A JSON value keeps the fields of its objects in order, repeated ones too, and its numbers
as they are written.
-/

namespace MutationTesting

/-- A JSON value; the fields of an object keep their order. -/
inductive Json where
  | null
  | bool (value : Bool)
  /-- A number, by its text. -/
  | number (text : String)
  | string (text : String)
  /-- A string, or an object with a name, that holds half of a surrogate pair, and so is
  no text. -/
  | broken
  | array (items : List Json)
  | object (fields : List (String × Json))

namespace Json

def ofNat (n : Nat) : Json := .number (toString n)

/-- The value of the first field with a name. -/
def field? (json : Json) (name : String) : Option Json :=
  match json with
  | .object fields => (fields.find? (·.1 == name)).map (·.2)
  | _ => none

end Json

end MutationTesting
