import SvServer.Path

/-!
Which files are hardware description sources, and which are headers. The extension alone decides.
-/

namespace SvServer

/-- A source file may start a compilation unit; a header is only ever included by another file. -/
inductive FileKind where
  | source
  | header
deriving DecidableEq, Repr

namespace Path

/-- Extensions of source files. -/
def sourceExtensions : List String := ["sv", "v", "SV", "V", "verilog"]

/-- Extensions of header files. -/
def headerExtensions : List String := ["svh", "vh", "SVH", "VH", "verilogh", "h"]

/-- The text after the last dot of a file name. A name without a dot has none, and so has a name
whose only dot is its first character. -/
def extension? (path : Path) : Option String :=
  match path.fileName? with
  | none => none
  | some name =>
    let reversed := name.toList.reverse
    let tail := reversed.takeWhile (· ≠ '.')
    match reversed.drop tail.length with
    | _ :: _ :: _ => some (String.ofList tail.reverse)
    | _ => none

/-- The kind of a file, decided by its extension. -/
def kind? (path : Path) : Option FileKind :=
  match path.extension? with
  | none => none
  | some extension =>
    if sourceExtensions.contains extension then some .source
    else if headerExtensions.contains extension then some .header
    else none

/-- Whether the file takes part in compilation at all. -/
def isHdl (path : Path) : Bool := path.kind?.isSome

/-- Whether the file may start a compilation unit. -/
def isSource (path : Path) : Bool := path.kind? == some .source

end Path

end SvServer
