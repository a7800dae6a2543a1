import SvServer.Json.Basic

/-!
Reading JSON values by their shape. A structure may be written as an object, whose other keys do not
count, or as the list of its fields in order. An absent key and `null` both leave an optional field
out.
-/

namespace SvServer.Json

/-- The fields of a structure, in the order of the names. In a list none may be left out. -/
def fields? (names : List String) : Json → Option (List (Option Json))
  | .object fields => some (names.map fun name => lookup name fields)
  | .array items => if items.length = names.length then some (items.map some) else none
  | _ => none

/-- The fields of a structure that is always written as an object. -/
def objectFields? (names : List String) : Json → Option (List (Option Json))
  | .object fields => some (names.map fun name => lookup name fields)
  | _ => none

/-- The single field of a structure. -/
def onlyField? {α : Type} (name : String) (read : Json → Option α) (json : Json) : Option α :=
  match json.fields? [name] with
  | some [some value] => read value
  | _ => none

/-- An optional field; `none` when it is there but cannot be read. -/
def optional? {α : Type} (read : Json → Option α) : Option Json → Option (Option α)
  | none => some none
  | some .null => some none
  | some value => (read value).map some

/-- Reads every item of a list. -/
def list? {α : Type} (read : Json → Option α) (json : Json) : Option (List α) := do
  (← json.items?).mapM read

/-- A natural number below 2^32. -/
def word? (json : Json) : Option Nat := json.natural?.filter (· < Nat.pow 2 32)

/-- An integer of 32 bits with its sign. -/
def int? : Json → Option Int
  | .number (.natural value) => if value < Nat.pow 2 31 then some value else none
  | .number (.negative magnitude) =>
    if magnitude ≤ Nat.pow 2 31 then some (-(magnitude : Int)) else none
  | _ => none

end SvServer.Json
