import SvServer.CommandLine
import SvServer.Server.Message

/-!
The program. Served over standard input and output it works on the documents that the editor has
open, over a disk without files.
-/

namespace SvServer.Program

/-- Reads the header of a message; the length of its body, or none at the end of the input. -/
partial def readHeader (input : IO.FS.Stream) (length : Option Nat) : IO (Option Nat) := do
  let line ← input.getLine
  if line.isEmpty then return none
  else if (Text.trim line).isEmpty then return some (length.getD 0)
  else readHeader input ((Message.lengthOfHeader? line).or length)

/-- Reads a number of bytes, or what is left of the input. -/
partial def readBody (input : IO.FS.Stream) (length : Nat) (read : ByteArray) : IO ByteArray := do
  if length ≤ read.size then return read
  let part ← input.read (length - read.size).toUSize
  if part.isEmpty then return read else readBody input length (read ++ part)

/-- Handles messages until the editor sends `exit` or the input ends. -/
partial def serve (input output : IO.FS.Stream) (server : Server) (disk : Disk) (last : Nat) :
    IO Unit := do
  let some length ← readHeader input none | return ()
  let body ← readBody input length .empty
  let now ← IO.monoMsNow
  let (waited, disk, sent) := server.wait disk (now - last)
  let incoming := (String.fromUTF8? body).bind Message.ofText?
  let (after, disk, replies) := match incoming with
    | some message => Message.handle waited disk message
    | none => (waited, disk, [])
  for json in sent.map Message.notification ++ replies do
    output.putStr (Message.frame json)
  output.flush
  if (incoming.map Message.Incoming.method) = some "exit" then return ()
  serve input output after disk now

end SvServer.Program

open SvServer in
/-- Serves the editor, or answers the command line. -/
def main (arguments : List String) : IO UInt32 := do
  match CommandLine.Action.ofArguments false arguments with
  | .version => IO.println CommandLine.versionText; return 0
  | .help => IO.print CommandLine.helpText; return 0
  | .unknown argument => IO.eprintln (CommandLine.unknownText argument); return 1
  | .serve =>
    let disk : Disk := ⟨.empty, .ofString "/", 0⟩
    Program.serve (← IO.getStdin) (← IO.getStdout) (.start .initial License.defaultFile) disk
      (← IO.monoMsNow)
    return 0
