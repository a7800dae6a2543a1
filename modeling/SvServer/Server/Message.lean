import SvServer.Json.Printer
import SvServer.Json.Tree
import SvServer.Server.Protocol

/-!
Messages between editor and server: JSON-RPC texts, each behind a header with its length in bytes.
-/

namespace SvServer.Message

/-- What the editor sent: a method with parameters, and an identifier if it waits for an answer. -/
structure Incoming where
  id : Option Json
  method : String
  params : Json

/-- Reads a message. Absent parameters count as an empty object. -/
def ofText? (text : String) : Option Incoming := do
  let json ← Json.ofString? text
  let method ← (json.get? "method").bind Json.string?
  return ⟨json.get? "id", method, (json.get? "params").getD (.object [])⟩

/-- The length that a header line gives. -/
def lengthOfHeader? (line : String) : Option Nat :=
  match line.splitOn ":" with
  | [name, value] =>
    if (Text.trim name).toLower = "content-length" then (Text.trim value).toNat? else none
  | _ => none

/-- A message as it is sent. -/
def frame (json : Json) : String :=
  let body := json.compact
  "Content-Length: " ++ toString body.utf8ByteSize ++ "\r\n\r\n" ++ body

/-- A message that waits for no answer. -/
def notification (outgoing : Outgoing) : Json :=
  .object [("jsonrpc", .string "2.0"), ("method", .string (Protocol.method outgoing)),
    ("params", Protocol.params outgoing)]

/-- The answer to a request of the editor. -/
def answer (id : Json) (reply : Reply) : Json :=
  .object [("jsonrpc", .string "2.0"), ("result", Protocol.reply reply), ("id", id)]

/-- The answer to a message whose method or parameters are wrong; -32602 stands for that. -/
def refusal (id : Json) : Json :=
  .object [("jsonrpc", .string "2.0"),
    ("error", .object [("code", .int (-32602)), ("message", .string "Invalid params")]), ("id", id)]

/-- Handles one message: the server and the disk after it, and what is sent, the answer last. -/
def handle (server : Server) (disk : Disk) (incoming : Incoming) : Server × Disk × List Json :=
  match Request.ofMethod? incoming.method incoming.params with
  | none => (server, disk, incoming.id.toList.map refusal)
  | some request =>
    let (server, disk, sent, reply) := server.respond disk request
    (server, disk, sent.map notification ++ incoming.id.toList.map fun id => answer id reply)

end SvServer.Message
