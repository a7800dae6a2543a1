import SvServer.Disk
import SvServer.Json.Printer
import SvServer.Json.Tree
import SvServer.Project.Error
import SvServer.Project.MacroEntry
import SvServer.Text.Blank

/-!
The settings file in the root of a project. It is read by its schema: settings that the server knows
must have their shape and must not be repeated, and all other keys are written back untouched. What
the schema skips is not looked into.
-/

namespace SvServer

/-- The settings of a project as they are stored. -/
structure ProjectSettings where
  /-- Excluded paths: relative to the project root, or absolute under an imported root -/
  excludePaths : List String
  /-- Absolute paths of additional roots -/
  imports : List String
  macros : List ProjectMacro
  /-- Names of diagnostics that are hidden in the whole project -/
  hiddenNames : List String
  /-- All other keys, in the order in which they were first written -/
  extra : List (String × Json)

namespace ProjectSettings

def empty : ProjectSettings := ⟨[], [], [], [], []⟩

instance : Inhabited ProjectSettings := ⟨empty⟩

/-- Name of the settings file. -/
def fileName : String := ".hdl-project"

/-- Where the settings of a root are kept. -/
def fileOf (root : Path) : Path := root.child fileName

/-! ## Reading -/

/-- A tree that is a text. -/
def text? : Json.Tree → Option String
  | .string units => Json.Tree.stringText? units
  | _ => none

/-- A tree that is a list of texts. -/
def texts? : Json.Tree → Option (List String)
  | .array items => items.mapM text?
  | _ => none

/-- Fields whose keys are texts. -/
def named? (fields : List (List Json.StringUnit × Json.Tree)) :
    Option (List (String × Json.Tree)) :=
  fields.mapM fun (key, value) => (Json.Tree.stringText? key).map fun name => (name, value)

/-- A tree that is a macro. -/
def macro? : Json.Tree → Option ProjectMacro
  | .object fields => do
    let fields ← named? fields
    ProjectMacro.ofFields? (fields.map fun (key, value) => (key, text? value))
  | .array items => ProjectMacro.ofItems? (items.map text?)
  | _ => none

/-- A tree that is a list of macros. -/
def macros? : Json.Tree → Option (List ProjectMacro)
  | .array items => items.mapM macro?
  | _ => none

/-- A setting that holds a list. It may be absent, and may not be repeated. -/
def setting? {α : Type} (key : String) (read : Json.Tree → Option (List α))
    (fields : List (String × Json.Tree)) : Option (List α) :=
  match fields.filter fun field => field.1 = key with
  | [] => some []
  | [(_, value)] => read value
  | _ => none

/-- Keys that the server knows. -/
def knownKeys : List String := ["excludePaths", "imports", "macros", "projectSuppressions"]

/-- The value of a key that the server does not know. The file around it counts for its nesting. -/
def extraValue? (value : Json.Tree) : Option Json :=
  if value.depth + 1 < Json.Tree.depthLimit then value.value? else none

/-- The settings that a tree holds. -/
def ofTree? : Json.Tree → Option ProjectSettings
  | .object fields => do
    let fields ← named? fields
    let excludePaths ← setting? "excludePaths" texts? fields
    let imports ← setting? "imports" texts? fields
    let macros ← setting? "macros" macros? fields
    let hiddenNames ← setting? "projectSuppressions" texts? fields
    let unknown := fields.filter fun field => !knownKeys.contains field.1
    let extra ← unknown.mapM fun (key, value) => (extraValue? value).map fun json => (key, json)
    return ⟨excludePaths, imports, macros, hiddenNames,
      extra.foldl (fun done field => Json.setField field.1 field.2 done) []⟩
  | _ => none

/-- The settings of a text. A blank text holds none. -/
def ofText? (text : String) : Option ProjectSettings :=
  if Text.trim text = "" then some empty else (Json.Tree.ofString? text).bind ofTree?

/-- Reads the settings of a root; `none` when there is no file. -/
def read (disk : Disk) (root : Path) : Except ProjectError (Option ProjectSettings) :=
  let path := fileOf root
  match disk.resolve path with
  | .error .notFound => .ok none
  | .ok (.file ⟨some text, _, _⟩) =>
    match ofText? text with
    | some settings => .ok (some settings)
    | none => .error (.malformedSettings path)
  | _ => .error (.fileSystem path)

/-- Reads the settings of a root. A file that cannot be used counts as one without settings. -/
def readOrEmpty (disk : Disk) (root : Path) : ProjectSettings :=
  match read disk root with
  | .ok (some settings) => settings
  | _ => empty

/-! ## Writing -/

/-- Known keys come first, in a fixed order, and then all others. -/
def toJson (settings : ProjectSettings) : Json :=
  let texts (list : List String) : Json := .array (list.map .string)
  .object ([("excludePaths", texts settings.excludePaths), ("imports", texts settings.imports),
    ("macros", .array (settings.macros.map ProjectMacro.toJson)),
    ("projectSuppressions", texts settings.hiddenNames)] ++ settings.extra)

/-- The text that is saved. -/
def text (settings : ProjectSettings) : String := settings.toJson.pretty ++ "\n"

/-- Writes the settings of a root. -/
def write (settings : ProjectSettings) (disk : Disk) (root : Path) : Except ProjectError Disk :=
  (disk.write (fileOf root) settings.text).mapError fun _ => .fileSystem (fileOf root)

end ProjectSettings

end SvServer
