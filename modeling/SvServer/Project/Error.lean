import SvServer.Path

/-!
Why an operation on a project is refused.
-/

namespace SvServer

/-- Each cause carries the paths that it is about. -/
inductive ProjectError where
  | notFound (path : Path)
  | outsideRoot (path root : Path)
  | withinRoot (path : Path)
  | parentOfRoot (path : Path)
  | notADirectory (path : Path)
  | principalRoot (path : Path)
  | notARoot (path : Path)
  /-- The file system refused -/
  | fileSystem (path : Path)
  /-- The settings file is malformed -/
  | malformedSettings (path : Path)
deriving BEq, Repr

/-- The wording of a refusal. -/
def ProjectError.message : ProjectError → String
  | notFound path => "path does not exist: " ++ path.toString
  | outsideRoot path root =>
    "path " ++ path.toString ++ " is outside the project root " ++ root.toString
  | withinRoot path => "path " ++ path.toString ++ " is already within a compilation root"
  | parentOfRoot path => "path " ++ path.toString ++ " is parent of an existing compilation root"
  | notADirectory path => "path " ++ path.toString ++ " is not a directory"
  | principalRoot path => "cannot remove the principal root unit " ++ path.toString
  | notARoot path => "path " ++ path.toString ++ " is not a compilation root"
  | fileSystem path => "I/O error on " ++ path.toString
  | malformedSettings path => "malformed dotfile " ++ path.toString

end SvServer
