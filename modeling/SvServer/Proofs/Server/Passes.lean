import SvServer.Proofs.Server.Runs

/-!
# The passes of a turn

Passes over documents leave the project alone, waiting files included. A pass over the project takes
the files that wait and compiles new files; it runs while the license is valid, after the passes
that have lined up.
-/

namespace SvServer

/-! ## What a pass leaves alone -/

namespace Server

theorem project_afterPass (server : Server) (input : PassSetup) :
    (server.afterPass input).project = server.project := by
  rw [afterPass, publish_fst]
  rfl

theorem stage_afterPass (server : Server) (input : PassSetup) :
    (server.afterPass input).stage = server.stage := by
  rw [afterPass, publish_fst]
  rfl

end Server

/-! ## Passes over documents -/

namespace Turn

/-- The passes over documents leave the project alone, waiting files included. -/
theorem project_runPass (turn : Turn) (paths : PathSet) :
    (turn.runPass (.files paths)).server.project = turn.server.project := by
  rw [runPass, if_pos (show turn.server.allows (.files paths) = true from rfl)]
  exact turn.server.project_afterPass (turn.server.passSetup turn.disk paths false)

theorem disk_runPass (turn : Turn) (scope : PassScope) :
    (turn.runPass scope).disk = turn.disk := by
  rw [runPass]
  split <;> rfl

theorem project_runPasses (paths : List Path) (turn : Turn) :
    (paths.foldl (fun turn path => turn.runPass (.files {path})) turn).server.project =
      turn.server.project := by
  induction paths generalizing turn with
  | nil => rfl
  | cons first rest ih => rw [List.foldl_cons, ih, project_runPass]

theorem disk_runPasses (paths : List Path) (turn : Turn) :
    (paths.foldl (fun turn path => turn.runPass (.files {path})) turn).disk = turn.disk := by
  induction paths generalizing turn with
  | nil => rfl
  | cons first rest ih => rw [List.foldl_cons, ih, disk_runPass]

theorem project_runQueue (turn : Turn) : turn.runQueue.server.project = turn.server.project :=
  project_runPasses turn.server.queue (turn.withServer { turn.server with queue := [] })

theorem disk_runQueue (turn : Turn) : turn.runQueue.disk = turn.disk :=
  disk_runPasses turn.server.queue (turn.withServer { turn.server with queue := [] })

theorem disk_compile (turn : Turn) (scope : PassScope) : (turn.compile scope).disk = turn.disk := by
  rw [compile, disk_runPass, disk_runQueue]

end Turn

/-! ## Passes over the project -/

namespace Server

/-- The input of a pass over the project, such as that of a recompile. -/
def recompileSetup (server : Server) (disk : Disk) : PassSetup :=
  server.takeWaiting.1.passSetup disk server.takeWaiting.2 true

theorem engine_lineUp (server : Server) : server.lineUp.engine = server.engine := rfl

theorem engine_takeWaiting (server : Server) :
    server.takeWaiting.1.engine = server.engine := by
  rw [takeWaiting.eq_def]
  cases server.project <;> rfl

theorem stage_takeWaiting (server : Server) : server.takeWaiting.1.stage = server.stage := by
  rw [takeWaiting.eq_def]
  cases opened : server.project with
  | none => rfl
  | some project => simp [stage, opened, Project.takeWaiting]

/-- Once what waits was handed over, nothing waits. -/
theorem waiting_takeWaiting {server : Server} {project : Project}
    (opened : server.takeWaiting.1.project = some project) : project.waiting = ∅ := by
  rw [takeWaiting.eq_def] at opened
  cases was : server.project with
  | none =>
      rw [was] at opened
      exact absurd (was.symm.trans opened) nofun
  | some before =>
      rw [was] at opened
      rw [← Option.some.inj opened]
      rfl

/-- A full pass of a licensed server. -/
theorem compile_project {server : Server} (valid : server.gate.isValid = true) (disk : Disk) :
    (server.compile disk .project).1 =
      server.takeWaiting.1.afterPass (server.recompileSetup disk) := by
  have starts : server.setup? disk .project =
      some (server.takeWaiting.1, server.recompileSetup disk) := by
    unfold setup?
    rw [show server.allows .project = true from valid, if_pos rfl]
    rfl
  rw [compile, starts]
  rfl

/-- Whether some root of the open project tracks a file as included. -/
def tracks (server : Server) (file : Path) : Bool :=
  server.project.any fun project => project.includedFiles.contains file

theorem tracks_of_stage {before after : Server} (h : after.stage = before.stage) (file : Path) :
    after.tracks file = before.tracks file := by
  have same := map_project_of_stage h
    (fun project => project.includedFiles.contains file) fun _ _ => rfl
  rw [tracks, tracks]
  revert same
  cases after.project <;> cases before.project <;> simp

end Server

namespace Turn

/-- **What a full pass does**, once the license is valid: what had lined up runs, then the pass over
the project. -/
theorem server_compile_project (turn : Turn) (valid : turn.server.gate.isValid = true) :
    (turn.compile .project).server = (turn.runQueue.server.takeWaiting.1.afterPass
      (turn.runQueue.server.recompileSetup turn.disk)).lineUp := by
  have stillValid : turn.runQueue.server.gate.isValid = true := by
    rw [Server.gate_of_stage (moves_runQueue turn).stage_eq, valid]
  rw [compile, runPass, if_pos (show turn.runQueue.server.allows .project = true from stillValid)]
  show (turn.runQueue.server.compile turn.runQueue.disk .project).1.lineUp = _
  rw [disk_runQueue, Server.compile_project stillValid]

/-! ## Opening a project -/

/-- A turn in which a project was opened in place of the one before, up to its first pass. -/
def opened (turn : Turn) (project : Project) (followUp : FollowUp) : Turn :=
  let ran := turn.runQueue
  let server := ran.server.lineUp
  let (gate, events) := server.gate.loadStored License.isValidKey
    (License.fileStore server.licenseFile) ran.disk
  let fresh : Server := { server with
    gate := gate
    project := some project
    publisher := .empty
    declarations := []
    engine := .empty }
  (ran.publishing (fresh, server.publisher.clears)).notifyAll
    (changeNotices followUp ++ events.map Notice.ofLicense)

/-- **A project that can be opened takes the place of the one before**, and is compiled once the
license is valid. -/
theorem setProjectPath_of_opens {turn : Turn} {path : Path} {project : Project}
    {followUp : FollowUp}
    (opens : Project.openRoot turn.disk path turn.server.config.limits = .ok (project, followUp)) :
    turn.setProjectPath path =
      if (turn.opened project followUp).server.gate.isValid then
        (turn.opened project followUp).compile .project
      else turn.opened project followUp := by
  have same : Project.openRoot turn.runQueue.disk path turn.runQueue.server.lineUp.config.limits =
      .ok (project, followUp) := by
    rw [disk_runQueue, Server.config_of_stage
      (Server.Moves.stage_eq ((moves_runQueue turn).trans (Server.moves_lineUp _))), opens]
  rw [setProjectPath]
  dsimp only
  rw [same, opened]
  dsimp only
  rw [server_notifyAll]
  rfl

/-- The server with the new project: all that the old one left is gone. -/
theorem server_opened (turn : Turn) (project : Project) (followUp : FollowUp) :
    (turn.opened project followUp).server = { turn.runQueue.server.lineUp with
      gate := (turn.runQueue.server.lineUp.gate.loadStored License.isValidKey
        (License.fileStore turn.runQueue.server.lineUp.licenseFile) turn.runQueue.disk).1
      project := some project
      publisher := .empty
      declarations := []
      engine := .empty } :=
  server_notifyAll _ _

end Turn

end SvServer
