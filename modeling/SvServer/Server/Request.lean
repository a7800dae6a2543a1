import SvServer.Json.Shape
import SvServer.Project.MacroEntry
import SvServer.Text.Position
import SvServer.Uri.Read

/-!
Requests of the editor, read from their methods and parameters. Parameters that lack a required
field, or have one of the wrong kind, make no request. A document whose URI names no local file is
`none` in a request: such requests are answered without effect.
-/

namespace SvServer

/-- What the editor asks for or tells the server. -/
inductive Request where
  /-- Carries the settings given at the start, `null` if there are none -/
  | startUp (options : Json)
  | startedUp
  | shutdown
  | setLicenseKey (key : String)
  | setProjectPath (path : Path)
  | excludeResource (path : Path)
  | includeResource (path : Path)
  | addRootUnit (path : Path)
  | removeRootUnit (path : Path)
  | recompile
  | setMacros (macros : List ProjectMacro)
  | reloadSettings
  | diagnosticNames (path : Path) (line : Nat)
  | didOpen (path : Option Path) (version : Int) (text : String)
  /-- Carries the text after the last of the changes; none when there are no changes -/
  | didChange (path : Option Path) (version : Int) (text : Option String)
  | didClose (path : Option Path)
  | didChangeConfiguration (settings : Json)
  | completion (path : Option Path) (cursor : Position)
  | definition (path : Option Path) (cursor : Position)

namespace Request

/-- A path as the editor gives it: plain text, or the URI of a local file. -/
def clientPath (text : String) : Path :=
  let plain := (Path.ofString text).normalize
  if text.startsWith "file://" then (Uri.path? text).getD plain else plain

/-- A path given as a JSON text. -/
def clientPath? (json : Json) : Option Path := json.string?.map clientPath

/-- The URI of a document. -/
def document? (json : Json) : Option (Option Path) := do
  let text ← json.string?
  match Uri.read text with
  | .ok (.file path) => some (some path)
  | .ok .other => some none
  | .error _ => none

/-- The identifier of a document. -/
def identifier? : Json → Option (Option Path) := Json.onlyField? "uri" document?

/-- A position. -/
def position? (json : Json) : Option Position :=
  match json.fields? ["line", "character"] with
  | some [some line, some character] => return ⟨← line.word?, ← character.word?⟩
  | _ => none

/-- A range. -/
def range? (json : Json) : Option Range :=
  match json.fields? ["start", "end"] with
  | some [some start, some stop] => return ⟨← position? start, ← position? stop⟩
  | _ => none

/-- A changed text. The part that changed is checked, but only the text counts. -/
def change? (json : Json) : Option String :=
  match json.fields? ["range", "rangeLength", "text"] with
  | some [range, length, some text] => do
    let _ ← Json.optional? range? range
    let _ ← Json.optional? Json.word? length
    text.string?
  | _ => none

/-- A token of progress. -/
def token? : Json → Option Unit
  | .string _ => some ()
  | json => json.int?.map fun _ => ()

/-- What made the editor ask for completions. -/
def completionContext? (json : Json) : Option Unit :=
  match json.fields? ["triggerKind", "triggerCharacter"] with
  | some [some kind, character] => do
    let _ ← kind.int?
    let _ ← Json.optional? Json.string? character
    return ()
  | _ => none

/-- A place in a document, and the rest of the parameters around it. -/
def place? (json : Json) : Option (Option Path × Position) :=
  match json.objectFields? ["textDocument", "position", "workDoneToken", "partialResultToken"] with
  | some [some document, some position, work, result] => do
    let path ← identifier? document
    let cursor ← position? position
    let _ ← Json.optional? token? work
    let _ ← Json.optional? token? result
    return (path, cursor)
  | _ => none

/-- The parameters of a document that is opened. -/
def opened? (json : Json) : Option Request :=
  match json.fields? ["uri", "languageId", "version", "text"] with
  | some [some uri, some language, some version, some text] => do
    let path ← document? uri
    let _ ← language.string?
    return .didOpen path (← version.int?) (← text.string?)
  | _ => none

/-- The parameters of a document that changed. -/
def changed? (document changes : Json) : Option Request :=
  match document.fields? ["uri", "version"] with
  | some [some uri, some version] => do
    let path ← document? uri
    let version ← version.int?
    let texts ← changes.list? change?
    return .didChange path version texts.getLast?
  | _ => none

/-- Parameters that carry nothing. -/
def nothing? (request : Request) (json : Json) : Option Request :=
  (json.fields? []).map fun _ => request

/-- Reads the parameters of a method; none when they do not fit or the method is unknown. -/
def ofMethod? (method : String) (params : Json) : Option Request :=
  match method with
  | "initialize" => some (.startUp ((params.get? "initializationOptions").getD .null))
  | "initialized" => nothing? .startedUp params
  | "shutdown" => some .shutdown
  | "setLicenseKey" => (params.onlyField? "licenseKey" Json.string?).map .setLicenseKey
  | "setProjectPath" => (params.onlyField? "path" clientPath?).map .setProjectPath
  | "excludeResource" => (params.onlyField? "path" clientPath?).map .excludeResource
  | "includeResource" => (params.onlyField? "path" clientPath?).map .includeResource
  | "compiler/addRootUnit" => (params.onlyField? "path" clientPath?).map .addRootUnit
  | "compiler/removeRootUnit" => (params.onlyField? "path" clientPath?).map .removeRootUnit
  | "recompile" => nothing? .recompile params
  | "setMacros" =>
    (params.onlyField? "macros" (Json.list? ProjectMacro.ofJson?)).map .setMacros
  | "reloadDotFile" => nothing? .reloadSettings params
  | "getDiagnosticStringsForLine" =>
    match params.fields? ["filePath", "line"] with
    | some [some path, some line] => return .diagnosticNames (← clientPath? path) (← line.word?)
    | _ => none
  | "textDocument/didOpen" => params.onlyField? "textDocument" opened?
  | "textDocument/didChange" =>
    match params.fields? ["textDocument", "contentChanges"] with
    | some [some document, some changes] => changed? document changes
    | _ => none
  | "textDocument/didClose" => (params.onlyField? "textDocument" identifier?).map .didClose
  | "workspace/didChangeConfiguration" =>
    (params.onlyField? "settings" some).map .didChangeConfiguration
  | "textDocument/completion" => do
    let (path, cursor) ← place? params
    let _ ← Json.optional? completionContext? (params.get? "context")
    return .completion path cursor
  | "textDocument/definition" => do
    let (path, cursor) ← place? params
    return .definition path cursor
  | _ => none

end Request

end SvServer
