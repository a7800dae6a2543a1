import SvServer.Server.Turn

/-!
What the server sends, as the JSON of the language server protocol. Fields that carry nothing are
left out.
-/

namespace SvServer

/-- The name and the version that the server introduces itself with. -/
def Server.name : String := "HDL Copilot Server"

@[inherit_doc Server.name]
def Server.version : String := "0.1.0"

namespace Protocol

/-- A position as JSON. -/
def position (position : Position) : Json :=
  .object [("line", .nat position.line), ("character", .nat position.character)]

/-- A range as JSON. -/
def range (range : Range) : Json :=
  .object [("start", position range.start), ("end", position range.stop)]

/-- Documents are sent whole, when they are opened, changed and closed. -/
def capabilities : Json :=
  .object [("textDocumentSync", .object [("openClose", .bool true), ("change", .nat 1)]),
    ("completionProvider", .object []), ("definitionProvider", .bool true)]

/-- How the server introduces itself. -/
def serverInfo : Json :=
  .object [("name", .string Server.name), ("version", .string Server.version)]

/-- The numbers of the protocol for what an item inserts: a keyword or a module. -/
def completionKind : CompletionKind → Nat
  | .construct => 14
  | .instantiation => 9

/-- An item whose text is a snippet, which is format 2. -/
def completionItem (item : CompletionItem) : Json :=
  .object [("label", .string item.label), ("kind", .nat (completionKind item.kind)),
    ("detail", .string item.detail), ("insertTextFormat", .nat 2),
    ("textEdit", .object [("range", range item.range), ("newText", .string item.text)])]

/-- A place in a file as JSON. -/
def location (location : Location) : Json :=
  .object [("uri", .string location.uri), ("range", range location.range)]

/-- An answer. -/
def reply : Reply → Json
  | .nothing => .null
  | .capabilities => .object [("capabilities", capabilities), ("serverInfo", serverInfo)]
  | .names names => .object [("names", .array (names.map .string))]
  | .completions items =>
    .object [("isIncomplete", .bool false), ("items", .array (items.map completionItem))]
  | .locations locations => .array (locations.map location)

/-- A diagnostic as JSON. Its name is sent as the code. -/
def diagnostic (sent : SentDiagnostic) : Json :=
  .object [("range", range sent.range), ("severity", .nat sent.severity.code),
    ("code", .string sent.code), ("source", .string sent.source), ("message", .string sent.message)]

/-- The method of a message that the server sends on its own account. -/
def method : Outgoing → String
  | .publication _ => "textDocument/publishDiagnostics"
  | .notice notice => notice.method

/-- The parameters of a message that the server sends on its own account. -/
def params : Outgoing → Json
  | .publication publication =>
    .object [("uri", .string publication.uri),
      ("diagnostics", .array (publication.diagnostics.map diagnostic))]
  | .notice notice => notice.params

end Protocol

end SvServer
