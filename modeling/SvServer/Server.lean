import SvServer.Debounce
import SvServer.Engine
import SvServer.License.FileStore
import SvServer.Notice
import SvServer.Project.Change

/-!
The state of the server, and what one pass does to it.

A pass over document events starts from the files of these events and always runs. A full pass
starts from the files that wait in the project; it runs only while the license is valid, and leaves
the files waiting otherwise. Checks over the whole project are part of a pass exactly when the
license is valid.
-/

namespace SvServer

/-- A pass that waits for a quiet period to end. -/
structure Timer where
  due : Nat
  ticket : Nat
  path : Path
deriving BEq, Repr

/-- The state of the server between two requests. -/
structure Server where
  config : Config
  documents : Documents
  gate : License.Gate
  /-- The file that keeps the license key -/
  licenseFile : String
  project : Option Project
  publisher : Publisher
  debounce : Debounce
  /-- Waiting passes, in the order in which they were scheduled -/
  timers : List Timer
  /-- Documents whose passes have begun and wait for their turn, in order -/
  queue : List Path
  /-- Milliseconds since the server began -/
  clock : Nat
  /-- Design elements as of the last pass, for navigation and completion -/
  declarations : List Declaration
  engine : Engine

/-- Which files a pass starts from. -/
inductive PassScope where
  /-- These files, and whatever depends on them -/
  | files (paths : PathSet)
  /-- The files that wait in the project, whatever depends on them, and all files that the engine
  has never seen -/
  | project

/-- The diagnostics of one file as a pass computed them. -/
structure FileReport where
  path : Path
  diagnostics : List Diagnostic
  /-- Revision of the open document that the pass saw; `none` for disk content -/
  revision : Option Nat

namespace Server

/-- A server without project and documents. -/
def start (config : Config) (licenseFile : String) : Server where
  config := config
  documents := .empty
  gate := .initial
  licenseFile := licenseFile
  project := none
  publisher := .empty
  debounce := .empty
  timers := []
  queue := []
  clock := 0
  declarations := []
  engine := .empty

/-- What may be published at present. -/
def publishRules (server : Server) : PublishRules :=
  match server.project with
  | some project => project.publishRules server.config.source
  | none => ⟨server.config.source, [], []⟩

/-- The files that may be compiled. Without a project these are the open documents. -/
def eligible (server : Server) : PathSet :=
  match server.project with
  | some project => project.eligible server.documents.paths
  | none => .collect (server.documents.paths.filter Path.isHdl)

/-- The sources of a pass. -/
def sources (server : Server) (disk : Disk) : Sources :=
  match server.project with
  | some project => project.sources server.documents disk
  | none => .ofProject server.eligible server.documents disk []

/-- The macros of the project. -/
def macros (server : Server) : MacroTable :=
  match server.project with
  | some project => project.macros
  | none => .empty

/-- The input of a pass. -/
def passSetup (server : Server) (disk : Disk) (dirty : PathSet) (compileAdded : Bool) :
    PassSetup where
  eligible := server.eligible
  sources := server.sources disk
  macros := server.macros
  redefinedSeverity := server.config.redefinedSeverity
  dirty := dirty
  compileAdded := compileAdded
  crossFile := server.gate.isValid

/-- Takes the files that wait out of the project. -/
def takeWaiting (server : Server) : Server × PathSet :=
  match server.project with
  | some project =>
    let (rest, dirty) := project.takeWaiting
    ({ server with project := some rest }, dirty)
  | none => (server, ∅)

/-- Whether a pass may run. -/
def allows (server : Server) : PassScope → Bool
  | .files _ => true
  | .project => server.gate.isValid

/-- The input of a pass, if it may run, and the server after the input was taken. -/
def setup? (server : Server) (disk : Disk) (scope : PassScope) : Option (Server × PassSetup) :=
  if server.allows scope then
    match scope with
    | .files paths => some (server, server.passSetup disk paths false)
    | .project =>
      let (taken, dirty) := server.takeWaiting
      some (taken, taken.passSetup disk dirty true)
  else none

/-- Runs the engine. Gives the files to be published. -/
def compute (server : Server) (input : PassSetup) : Server × List FileReport :=
  let (engine, outcome) := server.engine.run input
  let files := outcome.touched.toList.map fun path =>
    ⟨path, engine.diagnosticsOf path, input.sources.revision path⟩
  ({ server with engine := engine, declarations := engine.declarations }, files)

/-- Publishes what a pass computed. A file whose document changed since is passed over: the change
scheduled a pass of its own. -/
def publish (server : Server) (files : List FileReport) : Server × List Publication :=
  let current := files.filter fun file => server.documents.revision? file.path == file.revision
  let (publisher, sent) := current.foldl (fun (publisher, sent) file =>
    let (publisher, publication) := publisher.send file.path file.diagnostics server.publishRules
    (publisher, sent ++ publication.toList)) (server.publisher, [])
  ({ server with publisher := publisher }, sent)

/-- Clears files at once. -/
def clear (server : Server) (paths : List Path) : Server × List Publication :=
  let (publisher, sent) := paths.foldl (fun (publisher, sent) path =>
    let (publisher, publication) := publisher.clear path
    (publisher, sent ++ publication.toList)) (server.publisher, [])
  ({ server with publisher := publisher }, sent)

/-- Runs a pass from beginning to end. -/
def compile (server : Server) (disk : Disk) (scope : PassScope) : Server × List Publication :=
  match server.setup? disk scope with
  | none => (server, [])
  | some (taken, input) =>
    let (computed, files) := taken.compute input
    computed.publish files

/-! ## Passes that wait -/

/-- The passes whose time has come begin, unless they were cancelled: they line up, the earliest
first. -/
def lineUp (server : Server) : Server :=
  let (ready, later) := server.timers.partition fun timer => timer.due ≤ server.clock
  let begun := (ready.mergeSort fun a b => a.due ≤ b.due).filter fun timer =>
    !server.debounce.isCancelled timer.ticket
  { server with
    timers := later
    queue := server.queue ++ begun.map Timer.path
    debounce := begun.foldl (fun debounce timer => debounce.complete timer.path) server.debounce }

end Server

end SvServer
