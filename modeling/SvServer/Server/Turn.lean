import SvServer.Completion
import SvServer.Definition
import SvServer.License.Key
import SvServer.Server
import SvServer.Server.Request

/-!
Turns of the server. A turn handles one request, or lets time pass; it changes the server and the
disk and sends publications and notices to the editor. Every turn ends before the next one begins.

Passes run one at a time. While one runs, the waiting passes whose time has come line up behind it.
They get their turn before the next pass or change of what the editor is shown, or when time passes.
-/

namespace SvServer

/-- What the server sends on its own account. -/
inductive Outgoing where
  | publication (publication : Publication)
  | notice (notice : Notice)
deriving DecidableEq, Repr

/-- What a request is answered with. -/
inductive Reply where
  | nothing
  /-- What the server is and can do -/
  | capabilities
  | names (names : List String)
  | completions (items : List CompletionItem)
  | locations (locations : List Location)
deriving DecidableEq, Repr

/-- A turn in progress. -/
structure Turn where
  server : Server
  disk : Disk
  /-- What was sent so far, in order -/
  sent : List Outgoing

namespace Turn

/-! ## Parts of a turn -/

/-- Goes on with another state of the server. -/
def withServer (turn : Turn) (server : Server) : Turn := { turn with server := server }

/-- Sends a notice. -/
def notify (turn : Turn) (notice : Notice) : Turn :=
  { turn with sent := turn.sent ++ [.notice notice] }

/-- Goes on with another state of the server, which sends publications. -/
def publishing (turn : Turn) (result : Server × List Publication) : Turn :=
  { turn with server := result.1, sent := turn.sent ++ result.2.map .publication }

/-- Sends notices in order. -/
def notifyAll (turn : Turn) (notices : List Notice) : Turn := notices.foldl notify turn

/-- Runs a pass, and lets others line up meanwhile. -/
def runPass (turn : Turn) (scope : PassScope) : Turn :=
  let ran := turn.publishing (turn.server.compile turn.disk scope)
  if turn.server.allows scope then ran.withServer ran.server.lineUp else ran

/-- Runs the passes that have lined up. -/
def runQueue (turn : Turn) : Turn :=
  let begun := turn.withServer { turn.server with queue := [] }
  turn.server.queue.foldl (fun turn path => turn.runPass (.files {path})) begun

/-- Runs a pass after those that have lined up. -/
def compile (turn : Turn) (scope : PassScope) : Turn := turn.runQueue.runPass scope

/-- The warning about a limit of discovery. -/
def limitText (limit : Nat) : String :=
  "Exceeded max files (" ++ toString limit ++
    ") for project. Consider excluding unneeded files from compilation."

/-- The notices that a change of the project leaves. -/
def changeNotices (followUp : FollowUp) : List Notice :=
  (if followUp.filesMoved then [.projectStructureChanged] else []) ++
    (followUp.limitWarning.toList.map fun limit => .warning (limitText limit))

/-- Sends the clears and notices that a change of the project leaves. -/
def settle (turn : Turn) (followUp : FollowUp) : Turn :=
  let turn := turn.runQueue
  (turn.publishing (turn.server.clear followUp.cleared.toList)).notifyAll (changeNotices followUp)

/-- Puts another state of the project in place. -/
def withProject (turn : Turn) (project : Project) : Turn :=
  turn.withServer { turn.server with project := some project }

/-! ## License and project -/

/-- Takes a license key. A license that becomes valid so lets the whole project be compiled. -/
def setLicenseKey (turn : Turn) (key : String) : Turn :=
  let server := turn.server
  let (gate, events, disk) :=
    server.gate.takeKey License.isValidKey (License.fileStore server.licenseFile) turn.disk key
  let opened := !server.gate.isValid && gate.isValid
  let project := if opened then server.project.map Project.addAllWaiting else server.project
  let after : Turn := ⟨{ server with gate := gate, project := project }, disk, turn.sent⟩
  let told := after.notifyAll (events.map Notice.ofLicense)
  if opened && project.isSome then told.compile .project else told

/-- Opens a project in place of the one before. What the editor shows of that one is cleared. While
the folder is walked, passes line up. -/
def setProjectPath (turn : Turn) (path : Path) : Turn :=
  let turn := turn.runQueue
  let server := turn.server.lineUp
  match Project.openRoot turn.disk path server.config.limits with
  | .error error => (turn.withServer server).notify (.warning error.message)
  | .ok (project, followUp) =>
    let (gate, events) :=
      server.gate.loadStored License.isValidKey (License.fileStore server.licenseFile) turn.disk
    let fresh : Server := { server with
      gate := gate
      project := some project
      publisher := .empty
      declarations := []
      engine := .empty }
    let cleared := turn.publishing (fresh, server.publisher.clears)
    let told := cleared.notifyAll (changeNotices followUp ++ events.map Notice.ofLicense)
    if gate.isValid then told.compile .project else told

/-- Changes the project in a way that may be refused. -/
def change (turn : Turn) (project : Project)
    (operation : Project → Disk → Project.Changed) :
    Turn × Except ProjectError FollowUp :=
  let changed := operation project turn.disk
  ({ turn.withProject changed.project with disk := changed.disk }, changed.followUp)

/-- Excludes or includes a path. The editor is told also when that is refused. -/
def changeExclusions (turn : Turn)
    (operation : Project → Disk → Project.Changed) : Turn :=
  match turn.server.project with
  | none => turn.notify .exclusionsChanged
  | some project =>
    match turn.change project operation with
    | (after, .ok followUp) => (after.notify .exclusionsChanged).settle followUp
    | (after, .error _) => after.notify .exclusionsChanged

/-- Adds or removes a root and compiles anew. -/
def changeRoots (turn : Turn) (operation : Project → Disk → Project.Changed) : Turn :=
  match turn.server.project with
  | none => turn
  | some project =>
    match turn.change project operation with
    | (after, .ok followUp) => (after.settle { followUp with filesMoved := true }).compile .project
    | (after, .error error) => after.notify (.warning error.message)

/-- Replaces the macros of the project. They take effect with the next recompile. -/
def setMacros (turn : Turn) (macros : List ProjectMacro) : Turn :=
  match turn.server.project with
  | none => turn.notify .macrosChanged
  | some project =>
    let (after, disk, _) := project.setMacros turn.disk macros
    ({ turn.withProject after with disk := disk }).notify .macrosChanged

/-- Reads the settings of the project again and compiles what waits. -/
def reloadSettings (turn : Turn) : Turn :=
  match turn.server.project with
  | none => turn
  | some project =>
    let (reloaded, followUp) := project.reload turn.disk
    let (after, dirty) := reloaded.takeWaiting
    let settled := (turn.withProject after).settle followUp
    if dirty.isEmpty then settled else settled.compile (.files dirty)

/-! ## Documents -/

/-- Compiles a document that changed: at once, or when no more changes came for a while. -/
def compileSoon (turn : Turn) (path : Path) : Turn :=
  let server := turn.server
  let scheduled := server.debounce.schedule path
  if server.config.debounce = 0 then
    let after := { server with debounce := scheduled.complete path }
    (turn.withServer after).compile (.files {path})
  else
    let timer : Timer := ⟨server.clock + server.config.debounce, server.debounce.issued, path⟩
    turn.withServer { server with debounce := scheduled, timers := server.timers ++ [timer] }

/-- Opens a document. -/
def didOpen (turn : Turn) (path : Path) (version : Int) (text : String) : Turn :=
  let documents := turn.server.documents.openDocument path text version
  (turn.withServer { turn.server with documents := documents }).compileSoon path

/-- Takes the new text of a document. -/
def didChange (turn : Turn) (path : Path) (version : Int) (text : String) : Turn :=
  let documents := turn.server.documents.update path text version
  (turn.withServer { turn.server with documents := documents }).compileSoon path

/-- Closes a document. Its file compiles from disk from then on, or is gone. -/
def didClose (turn : Turn) (path : Path) : Turn :=
  let server := turn.server
  let closed : Server := { server with
    documents := server.documents.close path
    debounce := server.debounce.cancel path }
  match server.project with
  | none => (turn.withServer closed).compile (.files {path})
  | some project =>
    let (after, forgotten) := project.dropMissing turn.disk path
    let kept := (turn.withServer closed).withProject after
    let told := if forgotten then kept.notify .projectStructureChanged else kept
    told.compile (.files {path})

/-! ## Settings and time -/

/-- Takes the settings given at the start. -/
def startUp (turn : Turn) (options : Json) : Turn :=
  match Config.ofJson? options with
  | none => turn
  | some config =>
    let licenseFile := config.licenseFile.getD turn.server.licenseFile
    turn.withServer { turn.server with config := config, licenseFile := licenseFile }

/-- Takes new settings. New limits of discovery take effect at once. -/
def didChangeConfiguration (turn : Turn) (settings : Json) : Turn :=
  match Config.ofJson? settings with
  | none => turn
  | some config =>
    let server := turn.server
    let sameFile :=
      config.licenseFile.map Path.ofString == server.config.licenseFile.map Path.ofString
    let licenseFile :=
      if sameFile then server.licenseFile else config.licenseFile.getD License.defaultFile
    let after := turn.withServer { server with config := config, licenseFile := licenseFile }
    match server.project with
    | none => after
    | some project =>
      if server.config.limitsDiffer config then
        let (walked, followUp) := project.discover turn.disk config.limits
        (after.withProject walked).settle followUp
      else after

/-- Cancels all passes that wait. -/
def shutdown (turn : Turn) : Turn :=
  turn.withServer { turn.server with debounce := turn.server.debounce.cancelAll }

/-- Lets the clock reach a time. What is due by then runs. -/
def advance (turn : Turn) (time : Nat) : Turn :=
  let server := { turn.server with clock := time }
  (turn.withServer server.lineUp).runQueue

/-- Lets time pass. First runs what lined up or was due already, and then what is due before the
end. A pass that is due right at the end is left waiting. -/
def wait (turn : Turn) (milliseconds : Nat) : Turn :=
  if milliseconds = 0 then turn
  else
    let start := turn.server.clock
    let stop := start + milliseconds
    let between := (turn.server.timers.map Timer.due).filter fun due => start < due && due < stop
    let ran := (start :: between.mergeSort).foldl advance turn
    ran.withServer { ran.server with clock := stop }

/-! ## Questions -/

/-- The text of a file: the open document, or else what is on disk. -/
def fileText? (turn : Turn) (path : Path) : Option (List Char) :=
  ((turn.server.documents.text? path).or (turn.disk.text? path)).map String.toList

/-- Completions need a project and a valid license. -/
def completion (turn : Turn) (path : Path) (cursor : Position) : Reply :=
  if turn.server.gate.isValid && turn.server.project.isSome then
    match turn.fileText? path with
    | some text => .completions (Completion.items text cursor turn.server.declarations)
    | none => .nothing
  else .nothing

/-- Definitions need a project, but no license. -/
def definition (turn : Turn) (path : Path) (cursor : Position) : Reply :=
  if turn.server.project.isSome then
    match turn.fileText? path with
    | some text =>
      match Definition.locations text cursor turn.server.declarations with
      | [] => .nothing
      | locations => .locations locations
    | none => .nothing
  else .nothing

/-! ## Requests -/

/-- What a request changes. -/
def handle (turn : Turn) : Request → Turn
  | .startUp options => turn.startUp options
  | .shutdown => turn.shutdown
  | .setLicenseKey key => turn.setLicenseKey key
  | .setProjectPath path => turn.setProjectPath path
  | .excludeResource path => turn.changeExclusions fun project disk => project.excludePath disk path
  | .includeResource path => turn.changeExclusions fun project disk => project.includePath disk path
  | .addRootUnit path => turn.changeRoots fun project disk => project.addRoot disk path
  | .removeRootUnit path => turn.changeRoots fun project disk => project.removeRoot disk path
  | .recompile => turn.compile .project
  | .setMacros macros => turn.setMacros macros
  | .reloadSettings => turn.reloadSettings
  | .didOpen (some path) version text => turn.didOpen path version text
  | .didChange (some path) version (some text) => turn.didChange path version text
  | .didClose (some path) => turn.didClose path
  | .didChangeConfiguration settings => turn.didChangeConfiguration settings
  | _ => turn

/-- What a request is answered with, before it changes anything. -/
def reply (turn : Turn) : Request → Reply
  | .startUp _ => .capabilities
  | .diagnosticNames path line => .names (turn.server.publisher.namesAt path line)
  | .completion (some path) cursor => turn.completion path cursor
  | .definition (some path) cursor => turn.definition path cursor
  | _ => .nothing

end Turn

namespace Server

/-- Handles one request: the server and the disk after it, what is sent, and the answer. -/
def respond (server : Server) (disk : Disk) (request : Request) :
    Server × Disk × List Outgoing × Reply :=
  let turn : Turn := ⟨server, disk, []⟩
  let after := turn.handle request
  (after.server, after.disk, after.sent, turn.reply request)

/-- Lets time pass between requests. -/
def wait (server : Server) (disk : Disk) (milliseconds : Nat) : Server × Disk × List Outgoing :=
  let after := (⟨server, disk, []⟩ : Turn).wait milliseconds
  (after.server, after.disk, after.sent)

end Server

end SvServer
