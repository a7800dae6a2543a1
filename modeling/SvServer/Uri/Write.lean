import SvServer.Path
import SvServer.Uri.Percent

/-!
File URIs of paths. Bytes that have a meaning in a URI, or are not ASCII, are percent-encoded.
-/

namespace SvServer.Uri

/-- The URI of an absolute path; a relative path has none. -/
def ofPath? (path : Path) : Option String :=
  match path.components with
  | .root :: [] => some "file:///"
  | .root :: rest =>
    some ("file://" ++ String.join (rest.map fun component => "/" ++ encodeSegment component.text))
  | _ => none

end SvServer.Uri
