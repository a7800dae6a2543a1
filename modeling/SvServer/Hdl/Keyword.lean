/-!
Reserved words and compiler directives, and the blocks that keywords open and close.
-/

namespace SvServer.Hdl

/-- Directives that take the rest of their line as arguments. -/
def lineDirectives : List String :=
  ["timescale", "default_nettype", "line", "pragma", "begin_keywords", "unconnected_drive",
   "default_decay_time", "default_trireg_strength"]

/-- Directives without arguments. -/
def plainDirectives : List String :=
  ["celldefine", "endcelldefine", "resetall", "nounconnected_drive", "end_keywords", "__FILE__",
   "__LINE__", "protect", "endprotect", "delay_mode_distributed", "delay_mode_path",
   "delay_mode_unit", "delay_mode_zero"]

/-- Directives that the preprocessor acts on. -/
def preprocessorDirectives : List String :=
  ["ifdef", "ifndef", "elsif", "else", "endif", "define", "undef", "undefineall", "include"]

/-- Whether a name is a directive of the language, so that no definition of that name is ever
expanded. -/
def isDirectiveName (name : String) : Bool :=
  preprocessorDirectives.contains name || lineDirectives.contains name ||
    plainDirectives.contains name

/-- Built-in gates, which are instantiated like modules. -/
def gates : List String :=
  ["and", "nand", "or", "nor", "xor", "xnor", "buf", "not", "bufif0", "bufif1", "notif0", "notif1",
   "pullup", "pulldown", "nmos", "pmos", "rnmos", "rpmos", "cmos", "rcmos", "tran", "rtran",
   "tranif0", "tranif1", "rtranif0", "rtranif1"]

/-- The reserved words of the language, except for those of gates. -/
def reservedWords : List String :=
  ["alias", "always", "always_comb", "always_ff", "always_latch", "assert", "assign", "assume",
   "automatic", "before", "begin", "bind", "bins", "binsof", "bit", "break", "byte", "case",
   "casex", "casez", "cell", "chandle", "checker", "class", "clocking", "config", "const",
   "constraint", "context", "continue", "cover", "covergroup", "coverpoint", "cross", "deassign",
   "default", "defparam", "design", "disable", "dist", "do", "edge", "else", "end", "endcase",
   "endchecker", "endclass", "endclocking", "endconfig", "endfunction", "endgenerate", "endgroup",
   "endinterface", "endmodule", "endpackage", "endprimitive", "endprogram", "endproperty",
   "endsequence", "endspecify", "endtable", "endtask", "enum", "event", "eventually", "expect",
   "export", "extends", "extern", "final", "first_match", "for", "force", "foreach", "forever",
   "fork", "forkjoin", "function", "generate", "genvar", "global", "highz0", "highz1", "if", "iff",
   "ifnone", "ignore_bins", "illegal_bins", "implements", "implies", "import", "incdir", "include",
   "initial", "inout", "input", "inside", "instance", "int", "integer", "interconnect", "interface",
   "intersect", "join", "join_any", "join_none", "large", "let", "liblist", "library", "local",
   "localparam", "logic", "longint", "macromodule", "matches", "medium", "modport", "module",
   "nettype", "new", "noshowcancelled", "null", "output", "package", "packed", "parameter",
   "posedge", "negedge", "priority", "program", "property", "protected", "pull0", "pull1", "pure",
   "rand", "randc", "randcase", "randsequence", "real", "realtime", "ref", "reg", "release",
   "repeat", "restrict", "return", "scalared", "sequence", "shortint", "shortreal", "showcancelled",
   "signed", "small", "soft", "solve", "specify", "specparam", "static", "string", "strong",
   "strong0", "strong1", "struct", "super", "supply0", "supply1", "sync_accept_on",
   "sync_reject_on", "table", "tagged", "task", "this", "throughout", "time", "timeprecision",
   "timeunit", "tri", "tri0", "tri1", "triand", "trior", "trireg", "type", "typedef", "union",
   "unique", "unique0", "unsigned", "until", "until_with", "untyped", "use", "uwire", "var",
   "vectored", "virtual", "void", "wait", "wait_order", "wand", "weak", "weak0", "weak1", "while",
   "wildcard", "wire", "with", "within", "wor", "primitive"]

/-- Whether a word is reserved. -/
def isReserved (word : String) : Bool := reservedWords.contains word || gates.contains word

/-- The words that close the block a keyword opens; `none` for a word that opens no block. The first
of them is the one named when it is missing. -/
def blockClosers? (opener : String) : Option (List String) :=
  match opener with
  | "module" | "macromodule" => some ["endmodule"]
  | "interface" => some ["endinterface"]
  | "package" => some ["endpackage"]
  | "program" => some ["endprogram"]
  | "primitive" => some ["endprimitive"]
  | "checker" => some ["endchecker"]
  | "class" => some ["endclass"]
  | "begin" => some ["end"]
  | "fork" => some ["join", "join_any", "join_none"]
  | "case" | "casex" | "casez" | "randcase" => some ["endcase"]
  | "generate" => some ["endgenerate"]
  | "covergroup" => some ["endgroup"]
  | "property" => some ["endproperty"]
  | "sequence" => some ["endsequence"]
  | "specify" => some ["endspecify"]
  | "table" => some ["endtable"]
  | "config" => some ["endconfig"]
  | _ => none

/-- Words that close a block. -/
def blockClosers : List String :=
  ["endmodule", "endinterface", "endpackage", "endprogram", "endprimitive", "endchecker",
   "endclass", "end", "join", "join_any", "join_none", "endcase", "endgenerate", "endgroup",
   "endproperty", "endsequence", "endspecify", "endtable", "endconfig"]

/-- Whether a word closes a block. -/
def isBlockCloser (word : String) : Bool := blockClosers.contains word

/-- Blocks that hold statements or items of the block around them. -/
def isTransparentBlock (opener : String) : Bool :=
  ["begin", "fork", "case", "casex", "casez", "randcase", "generate"].contains opener

/-- What a design element is. -/
inductive DesignElement where
  | module
  | interface
  | package
  | program
  | primitive
  | checker
deriving DecidableEq, Repr

namespace DesignElement

/-- The word for a kind in messages. -/
def text : DesignElement → String
  | module => "module"
  | interface => "interface"
  | package => "package"
  | program => "program"
  | primitive => "primitive"
  | checker => "checker"

/-- Whether a unit of this kind can be instantiated by its name. -/
def isInstantiable (kind : DesignElement) : Bool := kind != package

/-- Whether instances may be placed directly inside a unit of this kind. -/
def holdsInstances : DesignElement → Bool
  | module | interface | program => true
  | package | primitive | checker => false

/-- The kind of design element that a keyword opens. -/
def ofOpener? (opener : String) : Option DesignElement :=
  match opener with
  | "module" | "macromodule" => some module
  | "interface" => some interface
  | "package" => some package
  | "program" => some program
  | "primitive" => some primitive
  | "checker" => some checker
  | _ => none

end DesignElement

end SvServer.Hdl
