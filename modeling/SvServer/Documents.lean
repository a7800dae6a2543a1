import SvServer.Path

/-!
Open documents. While a document is open its text stands in place of what is on disk. Every write to
any document takes a new revision, and revisions are never used twice in a store.
-/

namespace SvServer

/-- An open document, with its path as it was last opened under. -/
structure Document where
  path : Path
  version : Int
  text : String
  revision : Nat
deriving BEq, Repr

/-- How often each operation happened. -/
structure DocumentMetrics where
  opened : Nat
  closed : Nat
  updates : Nat
  /-- Updates of documents that were not open -/
  orphanUpdates : Nat
deriving DecidableEq, Repr

/-- All open documents, with the last revision that was handed out. -/
structure Documents where
  table : PathMap Document
  lastRevision : Nat
  metrics : DocumentMetrics

namespace Documents

def empty : Documents := ⟨∅, 0, ⟨0, 0, 0, 0⟩⟩

instance : Inhabited Documents := ⟨empty⟩

/-- The document of a path, if it is open. -/
def get? (documents : Documents) (path : Path) : Option Document := documents.table[path]?

/-- Whether a document is open. -/
def contains (documents : Documents) (path : Path) : Bool := documents.table.contains path

/-- The text of an open document. -/
def text? (documents : Documents) (path : Path) : Option String :=
  (documents.get? path).map Document.text

/-- The revision of an open document. -/
def revision? (documents : Documents) (path : Path) : Option Nat :=
  (documents.get? path).map Document.revision

/-- The open documents, in path order. While a document is open it keeps the spelling that it was
first opened under. -/
def paths (documents : Documents) : List Path := documents.table.keys

/-- Number of open documents. -/
def size (documents : Documents) : Nat := documents.table.size

/-- Opens a document, or opens it anew. The new revision is `lastRevision` of the result. -/
def openDocument (documents : Documents) (path : Path) (text : String) (version : Int) :
    Documents :=
  let revision := documents.lastRevision + 1
  { table := documents.table.put path ⟨path, version, text, revision⟩
    lastRevision := revision
    metrics := { documents.metrics with opened := documents.metrics.opened + 1 } }

/-- Replaces the text of a document. One that is not open is opened by this. -/
def update (documents : Documents) (path : Path) (text : String) (version : Int) : Documents :=
  let revision := documents.lastRevision + 1
  let metrics := documents.metrics
  match documents.table[path]? with
  | some document =>
    { table := documents.table.put path
        { document with text := text, version := version, revision := revision }
      lastRevision := revision
      metrics := { metrics with updates := metrics.updates + 1 } }
  | none =>
    { table := documents.table.put path ⟨path, version, text, revision⟩
      lastRevision := revision
      metrics := { metrics with orphanUpdates := metrics.orphanUpdates + 1 } }

/-- Closes a document; its text is gone from then on. -/
def close (documents : Documents) (path : Path) : Documents :=
  if documents.table.contains path then
    { documents with
      table := documents.table.erase path
      metrics := { documents.metrics with closed := documents.metrics.closed + 1 } }
  else documents

end Documents

end SvServer
