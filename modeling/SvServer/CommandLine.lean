import SvServer.Server.Protocol

/-!
The command line. Options are looked at from left to right, and the first one that ends the program
decides.
-/

namespace SvServer.CommandLine

/-- What a command line asks for. -/
inductive Action where
  /-- Serve over standard input and output -/
  | serve
  | version
  | help
  | unknown (argument : String)
deriving DecidableEq, Repr

/-- Reads the arguments. `serving` tells whether serving was asked for already; without that, and
without anything else, the help is shown. -/
def Action.ofArguments (serving : Bool) : List String → Action
  | [] => if serving then .serve else .help
  | "--stdio" :: rest => ofArguments true rest
  | "--version" :: _ => .version
  | "--help" :: _ => .help
  | argument :: _ => .unknown argument

/-- What `--version` prints. -/
def versionText : String := "hdlsp " ++ Server.version

/-- What `--help` prints. -/
def helpText : String :=
  versionText ++ ", a SystemVerilog diagnostics server.\n\n" ++
  "Usage: hdlsp [OPTIONS]\n\n" ++
  "Available options:\n\n" ++
  "--stdio                      Start the LSP server using stdio transport\n" ++
  "--version                    Print the version\n" ++
  "--help                       Print this help message\n\n"

/-- What an argument that means nothing is answered with. -/
def unknownText (argument : String) : String := "Error: Unknown argument: '" ++ argument ++ "'"

end SvServer.CommandLine
