import SvServer.Path.Normal

/-!
Include resolution. An absolute name stands for itself. A relative name is first tried from the
directory of the including file, and then matched against the ends of all tracked paths.
-/

namespace SvServer.Include

/-- Whether `a` is preferred to `b` among matching paths: fewer components first, then path order.
-/
def prefers (a b : Path) : Bool :=
  (compareLex (compareOn fun p => p.components.length) compare a b).isLT

/-- The preferred path of a list. -/
def best? (candidates : List Path) : Option Path :=
  candidates.foldl (fun best candidate =>
    match best with
    | none => some candidate
    | some known => some (if prefers candidate known then candidate else known)) none

/-- Tracked paths whose last components are those of a relative path, which must end in an ordinary
name. -/
def suffixMatches (eligible : PathSet) (relative : Path) : List Path :=
  match relative.fileName? with
  | none => []
  | some name => eligible.toList.filter fun path =>
      path.fileName? == some name && path.endsWith relative

/-- The file that an include name stands for in a file of the given directory. -/
def resolve? (eligible : PathSet) (isFile : Path → Bool) (excluded : List Path) (name : String)
    (directory : Path) : Option Path :=
  let written := (Path.ofString name).normalize
  if written.isAbsolute then
    if (eligible.contains written || isFile written) && !written.isCoveredBy excluded then
      some written
    else none
  else
    let direct := (directory.join written).normalize
    if eligible.contains direct then some direct
    else best? (suffixMatches eligible written)

end SvServer.Include
