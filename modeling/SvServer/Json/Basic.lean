/-!
JSON values. An object keeps its keys in the order in which they were first written. Integers that
fit 64 bits stay exact; every other number is a float.
-/

namespace SvServer

/-- A number: a natural number below 2^64, the negative of a positive number up to 2^63, or a
float. -/
inductive Json.Number where
  | natural (value : Nat)
  | negative (magnitude : Nat)
  | float (value : Float)
deriving Repr, BEq, Inhabited

/-- A JSON value. Objects keep the order of their fields. -/
inductive Json where
  | null
  | bool (value : Bool)
  | number (value : Json.Number)
  | string (value : String)
  | array (items : List Json)
  | object (fields : List (String × Json))
deriving Repr, BEq, Inhabited

namespace Json

/-- The value of a key in a list of fields. -/
def lookup (key : String) (fields : List (String × Json)) : Option Json :=
  (fields.find? fun field => field.1 = key).map (·.2)

/-- Sets a key. A key that is there already keeps its place. -/
def setField (key : String) (value : Json) : List (String × Json) → List (String × Json)
  | [] => [(key, value)]
  | field :: rest =>
    if field.1 = key then (key, value) :: rest else field :: setField key value rest

/-- The value of a key of an object. -/
def get? (json : Json) (key : String) : Option Json :=
  match json with
  | .object fields => lookup key fields
  | _ => none

/-- The text of a string. -/
def string? : Json → Option String
  | .string value => some value
  | _ => none

/-- The truth value of a boolean. -/
def bool? : Json → Option Bool
  | .bool value => some value
  | _ => none

/-- A number written as an integer of the range 0 to 2^64 - 1. -/
def natural? : Json → Option Nat
  | .number (.natural value) => some value
  | _ => none

/-- The items of an array. -/
def items? : Json → Option (List Json)
  | .array items => some items
  | _ => none

/-- A natural number as a value. -/
def nat (value : Nat) : Json := .number (.natural value)

/-- An integer, for values that fit 64 bits. -/
def int (value : Int) : Json :=
  if value < 0 then .number (.negative value.natAbs) else .number (.natural value.toNat)

/-- A value, or `null` when there is none. -/
def ofOption (value : Option Json) : Json := value.getD .null

end Json

end SvServer
