import Mathlib.Logic.Relation
import SvServer.Proofs.Server.Publishing
import SvServer.Server.Turn

/-!
# What a turn does

A turn first takes in what is asked of it. Then the server goes on by itself: it runs passes, clears
files and keeps its books, and none of these touches what a pass is made of, apart from the files
that wait. What is shown and what the engine knows changes by such moves only, or by starting anew
with another project. This is said once for every request, so that what holds along all runs can be
derived from the moves.
-/

namespace SvServer

namespace Server

/-! ## What passes leave alone -/

/-- What a pass is made of, apart from the files that wait. -/
structure Stage where
  config : Config
  documents : Documents
  gate : License.Gate
  project : Option Project

def stage (server : Server) : Stage :=
  ⟨server.config, server.documents, server.gate,
    server.project.map fun project => { project with waiting := ∅ }⟩

variable {before after : Server}

/-- A property of projects that does not look at waiting files is a property of the stage. -/
theorem map_project_of_stage {α : Type} (h : after.stage = before.stage) (view : Project → α)
    (blind : ∀ project waiting, view { project with waiting := waiting } = view project) :
    after.project.map view = before.project.map view := by
  have projects := congrArg (fun stage : Stage => stage.project.map view) h
  simp only [stage, Option.map_map] at projects
  have unseen : view ∘ (fun project : Project => { project with waiting := ∅ }) = view :=
    funext fun project => blind project ∅
  rwa [unseen] at projects

theorem config_of_stage (h : after.stage = before.stage) : after.config = before.config :=
  congrArg Stage.config h

theorem documents_of_stage (h : after.stage = before.stage) : after.documents = before.documents :=
  congrArg Stage.documents h

theorem gate_of_stage (h : after.stage = before.stage) : after.gate = before.gate :=
  congrArg Stage.gate h

theorem publishRules_eq (server : Server) :
    server.publishRules = (server.project.map fun project =>
      project.publishRules server.config.source).getD ⟨server.config.source, [], []⟩ := by
  rw [publishRules]
  cases server.project <;> rfl

theorem publishRules_of_stage (h : after.stage = before.stage) :
    after.publishRules = before.publishRules := by
  rw [publishRules_eq, publishRules_eq, config_of_stage h]
  rw [map_project_of_stage h (fun project => project.publishRules before.config.source)
    fun _ _ => rfl]

theorem sources_eq (server : Server) (disk : Disk) :
    server.sources disk = (server.project.map fun project =>
      project.sources server.documents disk).getD
        (.ofProject (.collect (server.documents.paths.filter Path.isHdl)) server.documents disk
          []) := by
  rw [sources, eligible]
  cases server.project <;> rfl

theorem sources_of_stage (h : after.stage = before.stage) (disk : Disk) :
    after.sources disk = before.sources disk := by
  rw [sources_eq, sources_eq, documents_of_stage h]
  rw [map_project_of_stage h (fun project => project.sources before.documents disk) fun _ _ => rfl]

theorem eligible_eq (server : Server) :
    server.eligible = (server.project.map fun project =>
      project.eligible server.documents.paths).getD
        (.collect (server.documents.paths.filter Path.isHdl)) := by
  rw [eligible]
  cases server.project <;> rfl

theorem eligible_of_stage (h : after.stage = before.stage) : after.eligible = before.eligible := by
  rw [eligible_eq, eligible_eq, documents_of_stage h]
  rw [map_project_of_stage h (fun project => project.eligible before.documents.paths)
    fun _ _ => rfl]

theorem macros_eq (server : Server) :
    server.macros = (server.project.map Project.macros).getD .empty := by
  rw [macros]
  cases server.project <;> rfl

theorem macros_of_stage (h : after.stage = before.stage) : after.macros = before.macros := by
  rw [macros_eq, macros_eq, map_project_of_stage h Project.macros fun _ _ => rfl]

/-- Passes see the revisions of the open documents. -/
theorem revision_sources (server : Server) (disk : Disk) (path : Path) :
    (server.sources disk).revision path = server.documents.revision? path := by
  rw [sources]
  cases server.project <;> rfl

/-! ## Moves -/

/-- What the server does by itself. -/
inductive Move : Server → Server → Prop where
  /-- It keeps its books. -/
  | idle {before after : Server} (stage : after.stage = before.stage)
      (engine : after.engine = before.engine) (publisher : after.publisher = before.publisher) :
      Move before after
  /-- It runs a pass and publishes what came of it. -/
  | pass (server : Server) (input : PassSetup)
      (revision : ∀ path, input.sources.revision path = server.documents.revision? path) :
      Move server ((server.compute input).1.publish (server.compute input).2).1
  /-- It clears files. -/
  | clear (server : Server) (paths : List Path) : Move server (server.clear paths).1

/-- Any number of moves, one after the other. -/
abbrev Moves : Server → Server → Prop := Relation.ReflTransGen Move

theorem Move.stage_eq (h : Move before after) : after.stage = before.stage := by
  cases h with
  | idle stage => exact stage
  | pass => rw [publish_fst]; rfl
  | clear => rw [clear_fst]; rfl

theorem Moves.stage_eq (h : Moves before after) : after.stage = before.stage := by
  induction h with
  | refl => rfl
  | tail _ move ih => exact move.stage_eq.trans ih

/-- The server keeps its books before it goes on. -/
theorem Moves.after_idle {taken : Server} (h : Moves taken after)
    (stage : taken.stage = before.stage) (engine : taken.engine = before.engine)
    (publisher : taken.publisher = before.publisher) : Moves before after :=
  .head (.idle stage engine publisher) h

/-- What a pass starts with, once it may run. -/
theorem setup?_eq_some {server taken : Server} {disk : Disk} {scope : PassScope} {input : PassSetup}
    (h : server.setup? disk scope = some (taken, input)) :
    taken.stage = server.stage ∧ taken.engine = server.engine ∧
      taken.publisher = server.publisher ∧ input.sources = taken.sources disk := by
  unfold setup? at h
  split at h
  · cases scope with
    | files paths =>
        obtain ⟨rfl, rfl⟩ := Prod.mk.inj (Option.some.inj h)
        exact ⟨rfl, rfl, rfl, rfl⟩
    | project =>
        obtain ⟨rfl, rfl⟩ := Prod.mk.inj (Option.some.inj h)
        cases opened : server.project with
        | none => exact ⟨rfl, rfl, rfl, rfl⟩
        | some project => exact ⟨by simp [stage, opened, Project.takeWaiting], rfl, rfl, rfl⟩
  · exact absurd h (by simp)

/-- A pass is a move, after its input was taken. -/
theorem moves_compile (server : Server) (disk : Disk) (scope : PassScope) :
    Moves server (server.compile disk scope).1 := by
  rw [compile]
  cases started : server.setup? disk scope with
  | none => exact .refl
  | some start =>
      obtain ⟨taken, input⟩ := start
      obtain ⟨stage, engine, publisher, sources⟩ := setup?_eq_some started
      refine .head (.idle stage engine publisher) (.single (.pass taken input ?_))
      intro path
      rw [sources, revision_sources]

theorem moves_lineUp (server : Server) : Moves server server.lineUp :=
  .single (.idle rfl rfl rfl)

end Server

/-! ## Parts of a turn -/

namespace Turn

open Server (Moves)

@[simp] theorem server_notifyAll (turn : Turn) (notices : List Notice) :
    (turn.notifyAll notices).server = turn.server := by
  rw [notifyAll]
  induction notices generalizing turn with
  | nil => rfl
  | cons first rest ih => rw [List.foldl_cons, ih]; rfl

theorem moves_runPass (turn : Turn) (scope : PassScope) :
    Moves turn.server (turn.runPass scope).server := by
  have ran := Server.moves_compile turn.server turn.disk scope
  rw [runPass]
  split
  · exact ran.trans (Server.moves_lineUp _)
  · exact ran

theorem moves_runPasses (paths : List Path) (turn : Turn) :
    Moves turn.server
      (paths.foldl (fun turn path => turn.runPass (.files {path})) turn).server := by
  induction paths generalizing turn with
  | nil => exact .refl
  | cons first rest ih => exact (moves_runPass turn _).trans (ih _)

theorem moves_runQueue (turn : Turn) : Moves turn.server turn.runQueue.server :=
  (moves_runPasses turn.server.queue
    (turn.withServer { turn.server with queue := [] })).after_idle rfl rfl rfl

theorem moves_compile (turn : Turn) (scope : PassScope) :
    Moves turn.server (turn.compile scope).server :=
  (moves_runQueue turn).trans (moves_runPass _ scope)

theorem server_settle (turn : Turn) (followUp : FollowUp) :
    (turn.settle followUp).server = (turn.runQueue.server.clear followUp.cleared.toList).1 := by
  rw [settle, server_notifyAll]
  rfl

theorem moves_settle (turn : Turn) (followUp : FollowUp) :
    Moves turn.server (turn.settle followUp).server := by
  rw [server_settle]
  exact (moves_runQueue turn).tail (.clear _ _)

theorem moves_compileSoon (turn : Turn) (path : Path) :
    Moves turn.server (turn.compileSoon path).server := by
  rw [compileSoon]
  dsimp only
  split
  · exact (moves_compile (turn.withServer _) _).after_idle rfl rfl rfl
  · exact .single (.idle rfl rfl rfl)

/-! ## What a request comes to -/

/-- What a turn takes in before the server goes on by itself: it touches neither what is shown nor
what the engine knows, or both start anew. -/
def Takes (before after : Server) : Prop :=
  after.engine = before.engine ∧ after.publisher = before.publisher ∨
    after.engine = .empty ∧ after.publisher = .empty

/-- The turn takes something in, and then the server goes on by itself. -/
def Handles (before after : Server) : Prop := ∃ taken, Takes before taken ∧ Moves taken after

theorem Handles.of_moves {before after : Server} (h : Moves before after) : Handles before after :=
  ⟨before, .inl ⟨rfl, rfl⟩, h⟩

theorem Handles.keep {before after : Server} (engine : after.engine = before.engine)
    (publisher : after.publisher = before.publisher) : Handles before after :=
  ⟨after, .inl ⟨engine, publisher⟩, .refl⟩

/-- What follows a change of anything but engine and publisher. -/
theorem Handles.of_changed {before taken after : Server} (h : Moves taken after)
    (engine : taken.engine = before.engine) (publisher : taken.publisher = before.publisher) :
    Handles before after :=
  ⟨taken, .inl ⟨engine, publisher⟩, h⟩

/-- What follows a start from nothing. -/
theorem Handles.of_restarted {before taken after : Server} (h : Moves taken after)
    (engine : taken.engine = .empty) (publisher : taken.publisher = .empty) :
    Handles before after :=
  ⟨taken, .inr ⟨engine, publisher⟩, h⟩

theorem handles_setLicenseKey (turn : Turn) (key : String) :
    Handles turn.server (turn.setLicenseKey key).server := by
  rw [setLicenseKey]
  generalize turn.server.gate.takeKey License.isValidKey
    (License.fileStore turn.server.licenseFile) turn.disk key = outcome
  obtain ⟨gate, events, disk⟩ := outcome
  dsimp only
  generalize (if !turn.server.gate.isValid && gate.isValid then
    turn.server.project.map Project.addAllWaiting else turn.server.project) = project
  -- A key that makes the license valid is followed by a full pass.
  split
  · refine .of_changed (moves_compile _ _) ?_ ?_
    · rw [server_notifyAll]
    · rw [server_notifyAll]
  · rw [server_notifyAll]
    exact .keep rfl rfl

theorem handles_setProjectPath (turn : Turn) (path : Path) :
    Handles turn.server (turn.setProjectPath path).server := by
  rw [setProjectPath]
  dsimp only
  split
  · exact .of_moves ((moves_runQueue turn).trans (Server.moves_lineUp _))
  · -- Engine and publisher start anew, whatever the old project still did.
    show Handles _ (if _ then (notifyAll _ _).compile .project else notifyAll _ _).server
    split
    · refine .of_restarted (moves_compile _ _) ?_ ?_
      · rw [server_notifyAll]; rfl
      · rw [server_notifyAll]; rfl
    · rw [server_notifyAll]
      exact .of_restarted .refl rfl rfl

/-- **What a change of the exclusions does.** The editor is told in any case; what an accepted change
leads to comes after that. -/
theorem changeExclusions_cases (turn : Turn) (operation : Project → Disk → Project.Changed) :
    (turn.server.project = none ∧
      turn.changeExclusions operation = turn.notify .exclusionsChanged) ∨
    ∃ project, turn.server.project = some project ∧
      let changed := operation project turn.disk
      let after : Turn := { turn.withProject changed.project with disk := changed.disk }
      (∃ followUp, changed.followUp = .ok followUp ∧
        turn.changeExclusions operation = (after.notify .exclusionsChanged).settle followUp) ∨
      ∃ error, changed.followUp = .error error ∧
        turn.changeExclusions operation = after.notify .exclusionsChanged := by
  rw [changeExclusions]
  cases opened : turn.server.project with
  | none => exact .inl ⟨rfl, rfl⟩
  | some project =>
      refine .inr ⟨project, rfl, ?_⟩
      dsimp only
      rw [change]
      cases answered : (operation project turn.disk).followUp with
      | ok followUp => exact .inl ⟨followUp, rfl, rfl⟩
      | error error => exact .inr ⟨error, rfl, rfl⟩

/-- **What a change of the roots does.** An accepted change ends in a pass over the whole project. -/
theorem changeRoots_cases (turn : Turn) (operation : Project → Disk → Project.Changed) :
    (turn.server.project = none ∧ turn.changeRoots operation = turn) ∨
    ∃ project, turn.server.project = some project ∧
      let changed := operation project turn.disk
      let after : Turn := { turn.withProject changed.project with disk := changed.disk }
      (∃ followUp, changed.followUp = .ok followUp ∧ turn.changeRoots operation =
        (after.settle { followUp with filesMoved := true }).compile .project) ∨
      ∃ error, changed.followUp = .error error ∧
        turn.changeRoots operation = after.notify (.warning error.message) := by
  rw [changeRoots]
  cases opened : turn.server.project with
  | none => exact .inl ⟨rfl, rfl⟩
  | some project =>
      refine .inr ⟨project, rfl, ?_⟩
      dsimp only
      rw [change]
      cases answered : (operation project turn.disk).followUp with
      | ok followUp => exact .inl ⟨followUp, rfl, rfl⟩
      | error error => exact .inr ⟨error, rfl, rfl⟩

theorem handles_changeExclusions (turn : Turn) (operation : Project → Disk → Project.Changed) :
    Handles turn.server (turn.changeExclusions operation).server := by
  rcases turn.changeExclusions_cases operation with
    ⟨-, same⟩ | ⟨project, -, ⟨followUp, -, same⟩ | ⟨error, -, same⟩⟩ <;> rw [same]
  · exact .keep rfl rfl
  · exact .of_changed (moves_settle (notify _ _) _) rfl rfl
  · exact .keep rfl rfl

theorem handles_changeRoots (turn : Turn) (operation : Project → Disk → Project.Changed) :
    Handles turn.server (turn.changeRoots operation).server := by
  rcases turn.changeRoots_cases operation with
    ⟨-, same⟩ | ⟨project, -, ⟨followUp, -, same⟩ | ⟨error, -, same⟩⟩ <;> rw [same]
  · exact .keep rfl rfl
  · exact .of_changed ((moves_settle _ _).trans (moves_compile _ _)) rfl rfl
  · exact .keep rfl rfl

theorem handles_setMacros (turn : Turn) (macros : List ProjectMacro) :
    Handles turn.server (turn.setMacros macros).server := by
  rw [setMacros]
  split <;> exact .keep rfl rfl

theorem handles_reloadSettings (turn : Turn) :
    Handles turn.server turn.reloadSettings.server := by
  rw [reloadSettings]
  split
  · exact .keep rfl rfl
  · dsimp only
    split
    · exact .of_changed (moves_settle _ _) rfl rfl
    · exact .of_changed ((moves_settle _ _).trans (moves_compile _ _)) rfl rfl

theorem handles_didClose (turn : Turn) (path : Path) :
    Handles turn.server (turn.didClose path).server := by
  rw [didClose]
  dsimp only
  split
  · exact .of_changed (moves_compile _ _) rfl rfl
  · split <;> exact .of_changed (moves_compile _ _) rfl rfl

theorem handles_didChangeConfiguration (turn : Turn) (settings : Json) :
    Handles turn.server (turn.didChangeConfiguration settings).server := by
  rw [didChangeConfiguration]
  split
  · exact .keep rfl rfl
  · dsimp only
    split
    · exact .keep rfl rfl
    · split
      · exact .of_changed (moves_settle _ _) rfl rfl
      · exact .keep rfl rfl

/-- **Every request is taken in, and then the server goes on by itself.** -/
theorem handles_handle (turn : Turn) (request : Request) :
    Handles turn.server (turn.handle request).server := by
  cases request with
  | startUp options =>
      show Handles _ (turn.startUp options).server
      rw [startUp]
      split <;> exact .keep rfl rfl
  | setLicenseKey key => exact handles_setLicenseKey turn key
  | setProjectPath path => exact handles_setProjectPath turn path
  | excludeResource path => exact handles_changeExclusions turn _
  | includeResource path => exact handles_changeExclusions turn _
  | addRootUnit path => exact handles_changeRoots turn _
  | removeRootUnit path => exact handles_changeRoots turn _
  | recompile => exact .of_moves (moves_compile turn .project)
  | setMacros macros => exact handles_setMacros turn macros
  | reloadSettings => exact handles_reloadSettings turn
  | didOpen path version text =>
      cases path with
      | none => exact .keep rfl rfl
      | some path => exact .of_changed (moves_compileSoon (turn.withServer _) path) rfl rfl
  | didChange path version text =>
      cases path with
      | none => exact .keep rfl rfl
      | some path =>
          cases text with
          | none => exact .keep rfl rfl
          | some text => exact .of_changed (moves_compileSoon (turn.withServer _) path) rfl rfl
  | didClose path =>
      cases path with
      | none => exact .keep rfl rfl
      | some path => exact handles_didClose turn path
  | didChangeConfiguration settings => exact handles_didChangeConfiguration turn settings
  | startedUp => exact .keep rfl rfl
  | shutdown => exact .keep rfl rfl
  | diagnosticNames path line => exact .keep rfl rfl
  | completion path cursor => exact .keep rfl rfl
  | definition path cursor => exact .keep rfl rfl

/-! ## Time -/

theorem moves_advance (turn : Turn) (time : Nat) :
    Moves turn.server (turn.advance time).server :=
  (moves_runQueue (turn.withServer _)).after_idle rfl rfl rfl

theorem moves_wait (turn : Turn) (milliseconds : Nat) :
    Moves turn.server (turn.wait milliseconds).server := by
  have advances : ∀ times : List Nat, Moves turn.server (times.foldl advance turn).server :=
    fun times => List.foldlRecOn (motive := fun later : Turn => Moves turn.server later.server)
      times advance .refl fun later moved time _ => moved.trans (moves_advance later time)
  rw [wait]
  split
  · exact .refl
  · exact (advances _).tail (.idle rfl rfl rfl)

end Turn

end SvServer
