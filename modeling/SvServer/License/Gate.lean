import SvServer.Text.Blank

/-!
The license gate decides whether the whole project may be analysed. A key comes from the editor or
from a store that remembers the last good one. Which keys are good is up to a validator, and how
keys are kept is up to the store.
-/

namespace SvServer.License

/-- Where the gate stands. -/
inductive Status where
  /-- No key seen yet -/
  | unset
  /-- A stored key waits for its validation -/
  | cached
  | valid
  /-- Lasts until another key comes -/
  | invalid
deriving DecidableEq, Repr

/-- What a step of the gate makes known, in order. -/
inductive Event where
  | missing
  | valid
  | invalid
  /-- The editor may keep this key. Emitted once in the life of a gate, right after the first
  `valid`. -/
  | cacheKey (key : String)
  /-- A problem that does not matter for the gate itself -/
  | warning (message : String)
deriving DecidableEq, Repr

/-- A place that keeps one key, as part of a world that it may change. -/
structure Store (World : Type) where
  read : World → Option String
  /-- Writes a key, or says in words why that failed -/
  write : String → World → Except String World

/-- The gate, with the key that it holds. -/
structure Gate where
  status : Status
  key : Option String
  /-- Whether the editor was told a key already -/
  shared : Bool
deriving DecidableEq, Repr

namespace Gate

/-- A gate that has seen nothing. -/
def initial : Gate := ⟨.unset, none, false⟩

instance : Inhabited Gate := ⟨initial⟩

/-- Whether the whole project may be analysed. -/
def isValid (gate : Gate) : Bool := gate.status == .valid

/-- Opens the gate for a key. -/
def accept (gate : Gate) (key : String) : Gate × List Event :=
  (⟨.valid, some key, true⟩, if gate.shared then [.valid] else [.valid, .cacheKey key])

/-- Looks for a stored key and validates it. An open gate is left alone. -/
def loadStored {World : Type} (gate : Gate) (validator : String → Bool) (store : Store World)
    (world : World) : Gate × List Event :=
  if gate.isValid then (gate, [])
  else match store.read world with
    | none => (gate, [.missing])
    | some key =>
      if validator key then gate.accept key
      else ({ gate with status := .invalid, key := some key }, [.invalid])

/-- Validates a key from the editor, without the blanks around it, and keeps it if it is good. -/
def takeKey {World : Type} (gate : Gate) (validator : String → Bool) (store : Store World)
    (world : World) (given : String) : Gate × List Event × World :=
  let key := Text.trim given
  if validator key then
    let (opened, events) := gate.accept key
    match store.write key world with
    | .ok after => (opened, events, after)
    | .error message => (opened, .warning message :: events, world)
  else ({ gate with status := .invalid, key := none }, [.invalid], world)

end Gate

end SvServer.License
