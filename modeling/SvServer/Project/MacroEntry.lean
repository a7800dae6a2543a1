import SvServer.Json.Basic
import SvServer.MacroTable

/-!
The written form of one macro: an object with the keys `name` and `value`, or a list of name and
value. The value may be left out and is empty then.
-/

namespace SvServer.ProjectMacro

/-- The macro of an object's fields, in which a value that is no text is `none`. Other keys do not
count, and a key that counts must not be repeated. -/
def ofFields? (fields : List (String × Option String)) : Option ProjectMacro :=
  let given (key : String) : List (Option String) :=
    (fields.filter fun field => field.1 = key).map (·.2)
  match given "name", given "value" with
  | [some name], [] => some ⟨name, ""⟩
  | [some name], [some value] => some ⟨name, value⟩
  | _, _ => none

/-- The macro of a list's items, in which an item that is no text is `none`. -/
def ofItems? : List (Option String) → Option ProjectMacro
  | [some name] => some ⟨name, ""⟩
  | [some name, some value] => some ⟨name, value⟩
  | _ => none

/-- Reads a macro from a JSON value. -/
def ofJson? : Json → Option ProjectMacro
  | .object fields => ofFields? (fields.map fun (key, value) => (key, value.string?))
  | .array items => ofItems? (items.map Json.string?)
  | _ => none

/-- Macros are written as objects. -/
def toJson (given : ProjectMacro) : Json :=
  .object [("name", .string given.name), ("value", .string given.value)]

end SvServer.ProjectMacro
