import SvServer.Path

/-!
Normal form of a path, computed from its text alone: `.` disappears and `..` removes the component
before it. The file system is not asked, so a deleted file keeps the normal form it had.
-/

namespace SvServer.Path

/-- One step of normalisation over the components kept so far, innermost first. A `..` removes the
last one, unless there is none to remove, or it is itself a `..` that had to be kept. -/
def normalizeStep (kept : List Component) : Component → List Component
  | .here => kept
  | .up =>
    match kept with
    | [] | .root :: _ | .up :: _ => .up :: kept
    | _ :: rest => rest
  | component => component :: kept

/-- Resolves `.` and `..` without touching the file system. -/
def normalize (path : Path) : Path :=
  ofComponents (path.components.foldl normalizeStep []).reverse

/-- The part of a path below a root, with `/` between the names; `none` outside of it. -/
def relativeTo? (path root : Path) : Option String :=
  if path.isUnder root then
    let rest := path.components.drop root.components.length
    some (String.intercalate "/" (rest.map Component.text))
  else none

end SvServer.Path
