import SvServer.Diagnostic
import SvServer.Uri.Write

/-!
What every file last received. The publisher filters diagnostics, turns them into what the editor is
sent, and keeps a record of it for each file.
-/

namespace SvServer

/-- A diagnostic as the editor is sent it. -/
structure SentDiagnostic where
  range : Range
  severity : Severity
  code : String
  source : String
  message : String
deriving DecidableEq, Repr

/-- The diagnostics of one file, which replace all it had before. -/
structure Publication where
  uri : String
  diagnostics : List SentDiagnostic
deriving DecidableEq, Repr

/-- What a project lets through. -/
structure PublishRules where
  /-- The `source` of what is sent -/
  source : String
  /-- Nothing is shown at or beneath these paths -/
  excluded : List Path
  /-- Names of diagnostics that are hidden -/
  hidden : List String

/-- A diagnostic with the source that it is sent under. -/
def Diagnostic.sent (diagnostic : Diagnostic) (source : String) : SentDiagnostic :=
  ⟨diagnostic.range, diagnostic.severity, diagnostic.name.text, source, diagnostic.message⟩

namespace PublishRules

/-- Whether nothing is shown for a path. -/
def excludes (filter : PublishRules) (path : Path) : Bool := path.isCoveredBy filter.excluded

/-- Whether diagnostics of a name are hidden. -/
def hides (filter : PublishRules) (name : String) : Bool := filter.hidden.contains name

/-- The diagnostics of a file that the filter lets through. -/
def kept (filter : PublishRules) (path : Path) (diagnostics : List Diagnostic) : List Diagnostic :=
  if filter.excludes path then []
  else diagnostics.filter fun d => !filter.hides d.name.text

end PublishRules

/-- What each file last received. Files that received nothing are recorded too. -/
structure Publisher where
  published : PathMap (List Diagnostic)

namespace Publisher

def empty : Publisher := ⟨∅⟩

instance : Inhabited Publisher := ⟨empty⟩

/-- What the file last received, if it was ever sent anything. -/
def last? (publisher : Publisher) (path : Path) : Option (List Diagnostic) :=
  publisher.published[path]?

/-- Publishes the diagnostics of a file. Files that have no URI are left alone. -/
def send (publisher : Publisher) (path : Path) (diagnostics : List Diagnostic)
    (filter : PublishRules) : Publisher × Option Publication :=
  match Uri.ofPath? path with
  | none => (publisher, none)
  | some uri =>
    let kept := filter.kept path diagnostics
    (⟨publisher.published.put path kept⟩, some ⟨uri, kept.map fun d => d.sent filter.source⟩)

/-- Clears a file. -/
def clear (publisher : Publisher) (path : Path) : Publisher × Option Publication :=
  match Uri.ofPath? path with
  | none => (publisher, none)
  | some uri => (⟨publisher.published.put path []⟩, some ⟨uri, []⟩)

/-- Files whose last publication was not empty, in path order. -/
def filesShown (publisher : Publisher) : List Path :=
  (publisher.published.toList.filter fun entry => !entry.2.isEmpty).map (·.1)

/-- The clears that leave no file with diagnostics. After them the record is empty. -/
def clears (publisher : Publisher) : List Publication :=
  publisher.filesShown.filterMap fun path => (Uri.ofPath? path).map fun uri => ⟨uri, []⟩

/-- The distinct names last published on a line. -/
def namesAt (publisher : Publisher) (path : Path) (line : Nat) : List String :=
  let onLine := ((publisher.last? path).getD []).filter fun d => d.range.start.line == line
  (onLine.map fun d => d.name.text).eraseDups

end Publisher

end SvServer
