import SvServer.Text.Blank

/-!
The macros of a project, which every compiled file starts with. The table keeps the order in which
names were first given, because that is the order in which they are stored and shown.
-/

namespace SvServer

/-- A macro as it is exchanged with the editor and stored with the project. -/
structure ProjectMacro where
  name : String
  value : String
deriving DecidableEq, Repr

/-- Macros by name, in the order in which the names were first given. -/
structure MacroTable where
  entries : List (String × String)
deriving DecidableEq, Repr

namespace MacroTable

def empty : MacroTable := ⟨[]⟩

instance : Inhabited MacroTable := ⟨empty⟩

/-- The value of a macro. -/
def get? (table : MacroTable) (name : String) : Option String :=
  (table.entries.find? fun entry => entry.1 = name).map (·.2)

/-- Whether a macro is defined. -/
def contains (table : MacroTable) (name : String) : Bool := (table.get? name).isSome

/-- Number of macros. -/
def size (table : MacroTable) : Nat := table.entries.length

/-- Sets a value in a list of entries. A name that is there already keeps its place. -/
def setEntry (name value : String) : List (String × String) → List (String × String)
  | [] => [(name, value)]
  | entry :: rest =>
    if entry.1 = name then (name, value) :: rest else entry :: setEntry name value rest

/-- Sets the value of a macro. -/
def insert (table : MacroTable) (name value : String) : MacroTable :=
  ⟨setEntry name value table.entries⟩

/-- The names that a macro may have: a letter or underscore, then letters, digits, underscores and
dollar signs, all of them ASCII. -/
def isValidName (name : String) : Bool :=
  match name.toList with
  | [] => false
  | c :: rest =>
    (c.isAlpha || c = '_') && rest.all fun d => d.isAlphanum || d = '_' || d = '$'

/-- Adds a macro as it was given. Blanks around name and value are dropped, an invalid name is
ignored, and an empty value means `1`. -/
def add (table : MacroTable) (given : ProjectMacro) : MacroTable :=
  let name := Text.trim given.name
  let value := Text.trim given.value
  if isValidName name then table.insert name (if value = "" then "1" else value) else table

/-- The table of a list of macros; a later one replaces an earlier one of the same name. -/
def ofList (macros : List ProjectMacro) : MacroTable := macros.foldl add empty

/-- Whether two tables define the same names with the same values, in any order. -/
def agreesWith (a b : MacroTable) : Bool :=
  a.size == b.size && a.entries.all fun entry => b.get? entry.1 == some entry.2

/-- The table as a list of macros. -/
def toList (table : MacroTable) : List ProjectMacro :=
  table.entries.map fun (name, value) => ⟨name, value⟩

/-- The definitions as `NAME=VALUE`, in table order. -/
def assignments (table : MacroTable) : List String :=
  table.entries.map fun (name, value) => name ++ "=" ++ value

end MacroTable

end SvServer
