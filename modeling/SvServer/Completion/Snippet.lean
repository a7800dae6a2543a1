/-!
Snippets: texts with places that the editor stops at. A snippet is kept as its parts and written in
the notation of the editor only when it is sent.
-/

namespace SvServer

/-- A part of a snippet, as it is written. -/
inductive SnippetPart where
  /-- Text as it stands in the notation -/
  | plain (text : String)
  /-- A place without a text -/
  | tabStop (number : Nat)
  /-- A place with the text that stands there at first -/
  | placeholder (number : Nat) (text : String)
  /-- Where the cursor ends, in its short form -/
  | final
deriving DecidableEq, Repr

instance : Coe String SnippetPart := ⟨.plain⟩

/-- A snippet of the language that is offered by its label. -/
structure Snippet where
  label : String
  description : String
  parts : List SnippetPart
deriving Repr

namespace SnippetPart

/-- A part in the notation of the editor. -/
def render : SnippetPart → String
  | plain text => text
  | tabStop number => "$\x7b" ++ toString number ++ "\x7d"
  | placeholder number text => "$\x7b" ++ toString number ++ ":" ++ text ++ "\x7d"
  | final => "$0"

/-- Parts in the notation of the editor. -/
def renderAll (parts : List SnippetPart) : String := String.join (parts.map render)

/-- Characters that mean something else inside a placeholder. -/
def isSpecial (c : Char) : Bool := c = '\\' || c = '$' || c = '\x7d'

/-- A text so that it can stand inside a placeholder. -/
def escape (text : String) : String :=
  String.ofList (text.toList.flatMap fun c => if isSpecial c then ['\\', c] else [c])

end SnippetPart

/-- The snippets of the language, in the order in which they are offered. -/
def Snippet.all : List Snippet :=
  [⟨"module", "Define a module",
     ["module ", .placeholder 1 "name", "(\n  ", .placeholder 2 "input logic clk", ",\n  ",
      .placeholder 3 "input logic rst", "\n);\n  ", .tabStop 0, "\nendmodule : ",
      .placeholder 1 "name"]⟩,
   ⟨"program", "Define a program",
     ["program ", .placeholder 1 "name", ";\n  ", .tabStop 0, "\nendprogram : ",
      .placeholder 1 "name"]⟩,
   ⟨"class", "Define a class",
     ["class ", .placeholder 1 "name", ";\n  ", .tabStop 0, "\nendclass : ",
      .placeholder 1 "name"]⟩,
   ⟨"final", "Insert a final block",
     ["final begin\n  ", .tabStop 0, "\nend"]⟩,
   ⟨"interface", "Define an interface",
     ["interface ", .placeholder 1 "name", ";\n  ", .tabStop 0, "\nendinterface : ",
      .placeholder 1 "name"]⟩,
   ⟨"package", "Define a package",
     ["package ", .placeholder 1 "name", ";\n  ", .tabStop 0, "\nendpackage : ",
      .placeholder 1 "name"]⟩,
   ⟨"function", "Define a function",
     ["function ", .placeholder 1 "ret_type", " ", .placeholder 2 "name", "(",
      .placeholder 3 "input", ");\n  ", .tabStop 0, "\nendfunction : ", .placeholder 2 "name"]⟩,
   ⟨"task", "Define a task",
     ["task ", .placeholder 1 "name", "(", .placeholder 2 "input", ");\n  ", .tabStop 0,
      "\nendtask : ", .placeholder 1 "name"]⟩,
   ⟨"property", "Define a property",
     ["property ", .placeholder 1 "name", " (", .placeholder 2 "input", ");\n  ", .tabStop 0,
      "\nendproperty : ", .placeholder 1 "name"]⟩,
   ⟨"sequence", "Define a sequence",
     ["sequence ", .placeholder 1 "name", " (", .placeholder 2 "input1, input2", ");\n  ",
      .placeholder 0 "input1 or input2", ";\nendsequence : ", .placeholder 1 "name"]⟩,
   ⟨"assert", "Insert an assertion",
     [.placeholder 1 "label", ": assert property (", .placeholder 0 "expr", ");"]⟩,
   ⟨"assume", "Insert an assumption",
     [.placeholder 1 "label", ": assume property (", .placeholder 0 "expr", ");"]⟩,
   ⟨"cover", "Insert a cover",
     [.placeholder 1 "label", ": cover property (", .placeholder 2 "expr", ") ",
      .placeholder 0 "statement", ";"]⟩,
   ⟨"restrict", "Insert a restriction",
     [.placeholder 1 "label", ": restrict property (", .placeholder 0 "expr", ");"]⟩,
   ⟨"parameter", "Define a parameter",
     ["parameter ", .placeholder 1 "type", " ", .placeholder 2 "name", " = ",
      .placeholder 0 "value", ";"]⟩,
   ⟨"localparam", "Define a local parameter",
     ["localparam ", .placeholder 1 "type", " ", .placeholder 2 "name", " = ",
      .placeholder 0 "value", ";"]⟩,
   ⟨"typedef enum", "Define an enum",
     ["typedef enum ", .placeholder 1 "name", " \x7b\n  ", .placeholder 2 "ENUM1", ",\n  ",
      .placeholder 3 "ENUM2", "\n\x7d ", .placeholder 0 "enum_type", ";"]⟩,
   ⟨"generate", "Generate block",
     ["generate\n  ", .tabStop 0, "\nendgenerate"]⟩,
   ⟨"generate", "Generate block with for loop",
     ["genvar ", .placeholder 1 "i", ";\ngenerate\n  for (", .placeholder 1 "i", " = 0; ",
      .placeholder 1 "i", " < ", .placeholder 2 "nloop", "; ", .placeholder 1 "i", " = ",
      .placeholder 1 "i", " + 1) begin : ", .placeholder 3 "block", "\n    ", .tabStop 0,
      "\n  end\nendgenerate"]⟩,
   ⟨"always_comb", "Insert always_comb block",
     ["always_comb begin\n  ", .tabStop 0, "\nend"]⟩,
   ⟨"always_ff", "Insert always_ff block",
     ["always_ff @(", .placeholder 1 "posedge clk", ") begin\n  ", .tabStop 0, "\nend"]⟩,
   ⟨"always", "Insert always block",
     ["always @(", .placeholder 1 "posedge clk", ") begin\n  ", .tabStop 0, "\nend"]⟩,
   ⟨"initial", "Insert initial block",
     ["initial begin\n  ", .tabStop 0, "\nend"]⟩,
   ⟨"$info", "Insert info message",
     ["\\$info(\"", .placeholder 0 "message", "\");"]⟩,
   ⟨"$warning", "Insert warning message",
     ["\\$warning(\"", .placeholder 0 "message", "\");"]⟩,
   ⟨"$error", "Insert error message",
     ["\\$error(\"", .placeholder 0 "message", "\");"]⟩,
   ⟨"$fatal", "Insert fatal message",
     ["\\$fatal(\"", .placeholder 0 "message", "\");"]⟩,
   ⟨"$display", "Insert display message",
     ["\\$display(\"", .placeholder 0 "message", "\");"]⟩,
   ⟨"$write", "Insert write message",
     ["\\$write(\"", .placeholder 0 "message", "\");"]⟩,
   ⟨"$strobe", "Insert strobe message",
     ["\\$strobe(\"", .placeholder 0 "message", "\");"]⟩,
   ⟨"$monitor", "Insert monitor message",
     ["\\$monitor(\"", .placeholder 0 "message", "\");"]⟩]

end SvServer
