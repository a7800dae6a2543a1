import SvServer.Proofs.Project.Carrying
import SvServer.Proofs.Server.Exclusions
import SvServer.Proofs.Server.MacroChange

/-!
# What a full pass leaves uncompiled

A full pass starts from the files that wait in the project and from files that the engine has never
seen. Along every run each file that the project includes waits, or the engine has seen it and has a
unit for it if it is a root. So after a full pass every root that is tracked has a unit. A root that
has none is an open document that no root of the project tracks: the engine saw it first in a pass
over documents, which compiles no new files, and nothing makes such a document wait.
-/

/-!
## What operations settle

What is reported waits for the next explicit recompile once it is taken in. So after any operation
on a project an included file waits, or it was included before and did not wait then either. Files
that wait are forgotten only when they are handed over, and when a closed document's file is gone.
-/

namespace SvServer.Project

/-- What an operation on a project settles: a file that is included afterwards waits, or it was
included before and did not wait. -/
def Settles (before after : Project) : Prop :=
  ∀ file, after.includes file = true → after.waiting.contains file = true ∨
    before.includes file = true ∧ before.waiting.contains file = false

variable {before after : Project} {delta : FileChanges} {disk : Disk} {path file : Path}

theorem Settles.refl (project : Project) : project.Settles project := by
  intro file included
  cases waits : project.waiting.contains file with
  | true => exact .inl rfl
  | false => exact .inr ⟨included, rfl⟩

/-- Where all that is included waits, everything is settled. -/
theorem settles_addAllWaiting (before after : Project) : before.Settles after.addAllWaiting :=
  fun _ included => .inl (waiting_addAllWaiting included)

/-- **What is reported waits once it is taken in.** -/
theorem Reports.settles (h : before.Reports after delta) :
    before.Settles (after.takeIn delta).1 := by
  intro file included
  rw [waiting_takeIn]
  rcases h.included file included with included | waits | reported
  · cases waited : before.waiting.contains file with
    | true =>
        rw [h.waiting file waited]
        exact .inl rfl
    | false => exact .inr ⟨included, rfl⟩
  · rw [waits]
    exact .inl rfl
  · rw [reported, Bool.or_true]
    exact .inl rfl

/-! ### Operations -/

theorem settles_discover (project : Project) (disk : Disk) (limits : DiscoveryLimits) :
    project.Settles (project.discover disk limits).1 := by
  rw [discover_eq]
  exact (carries_withLimits project disk limits).toReports.settles

theorem settles_reload (project : Project) (disk : Disk) :
    project.Settles (project.reload disk).1 := by
  rw [reload_eq, finish]
  split
  · exact settles_addAllWaiting _ _
  · exact (carries_rewalk project disk).toReports.settles

/-- **A change of the files of one root settles what it includes**, also when it is refused. -/
theorem settles_changeFiles (project : Project) (disk : Disk) (path : Path)
    {change : RootFiles → RootFiles × Except ProjectError FileChanges}
    (answers : ∀ set : RootFiles, set.Answers (change set)) :
    project.Settles (project.changeFiles disk path change).project := by
  have fresh := carries_refresh project disk
  obtain ⟨set, ⟨delta, -, carries, accepted⟩ | ⟨error, -, same, refused⟩⟩ :=
    changeFiles_cases project disk path answers
  · rw [accepted]
    exact (fresh.trans carries).toReports.settles
  · rw [refused]
    exact (fresh.trans_same (waiting_putFilesFor _ path set) same).toReports.settles

theorem settles_excludePath (project : Project) (disk : Disk) (path : Path) :
    project.Settles (project.excludePath disk path).project :=
  settles_changeFiles project disk path fun set => set.answers_excludePath disk path

theorem settles_includePath (project : Project) (disk : Disk) (path : Path) :
    project.Settles (project.includePath disk path).project :=
  settles_changeFiles project disk path fun set => set.answers_includePath disk path

theorem settles_addRoot (project : Project) (disk : Disk) (path : Path) :
    project.Settles (project.addRoot disk path).project := by
  rcases addRoot_cases project disk path with ⟨-, error, refused⟩ | ⟨-, added, rfl, accepted⟩
  · rw [refused]
    exact .refl project
  · rw [accepted]
    exact ((carries_refresh project disk).toReports.trans
      (reports_insert _ disk path.normalize _)).settles

theorem settles_removeRoot (project : Project) (disk : Disk) (path : Path) :
    project.Settles (project.removeRoot disk path).project := by
  have fresh := carries_refresh project disk
  rcases removeRoot_cases project disk path with
    ⟨-, error, refused⟩ | ⟨-, ⟨error, refused⟩ | accepted⟩
  · rw [refused]
    exact .refl project
  · rw [refused]
    exact fresh.toReports.settles
  · rw [accepted]
    exact (fresh.trans (carries_dropImport _ path.normalize)).toReports.settles

/-- **A project that was just opened waits for all that it includes.** -/
theorem waiting_openRoot {root : Path} {limits : DiscoveryLimits} {project : Project}
    {followUp : FollowUp} (opened : openRoot disk root limits = .ok (project, followUp))
    (included : project.includes file = true) : project.waiting.contains file = true := by
  obtain ⟨settings, delta, rfl⟩ := eq_of_openRoot opened
  exact waiting_addAllWaiting included

/-! ### Closed documents -/

/-- Only the file of a closed document is forgotten, and it is not tracked any more. -/
theorem dropMissing_waiting (project : Project) (disk : Disk) (path : Path)
    (waits : project.waiting.contains file = true) :
    (path == file) = true ∨ (project.dropMissing disk path).1.waiting.contains file = true := by
  rw [dropMissing]
  dsimp only
  split
  · rw [PathSet.contains_erase, waiting_putFilesFor, waits, Bool.and_true]
    cases path == file <;> simp
  · exact .inr waits

theorem includes_of_dropMissing {project : Project}
    (included : (project.dropMissing disk path).1.includes file = true) :
    project.includes file = true := by
  rw [dropMissing] at included
  dsimp only at included
  split at included
  · have kept : (project.putFilesFor path
        ((project.filesFor path).dropMissing disk path).1).includes file = true := included
    obtain ⟨place, set, found, here⟩ := includes_iff_files?.1 kept
    rw [files?_putFilesFor] at found
    split at found
    · rw [← Option.some.inj found] at here
      exact includes_iff_files?.2
        ⟨_, _, files?_importAbove? path, RootFiles.isIncluded_of_dropMissing here⟩
    · exact includes_iff_files?.2 ⟨place, set, found, here⟩
  · exact included

end SvServer.Project

namespace SvServer

namespace Server

/-! ## Files that are accounted for -/

/-- Every file that the project includes waits, or is among those that a pass is about to start
from, or is known to the engine. -/
def Accounts (server : Server) (pending : PathSet) : Prop :=
  ∀ project, server.project = some project → ∀ file, project.includes file = true →
    project.waiting.contains file = true ∨ pending.contains file = true ∨ server.engine.Knows file

variable {server later : Server} {pending : PathSet}

theorem Accounts.of_eq (h : server.Accounts pending) (project : later.project = server.project)
    (engine : later.engine = server.engine) : later.Accounts pending := by
  rw [Accounts, project, engine]
  exact h

/-- **What an operation on the project settles is accounted for.** -/
theorem Accounts.of_settles (h : server.Accounts pending) {before after : Project}
    (opened : server.project = some before) (settles : before.Settles after)
    (project : later.project = some after) (engine : later.engine = server.engine) :
    later.Accounts pending := by
  intro current same file included
  obtain rfl : after = current := Option.some.inj (project.symm.trans same)
  rw [engine]
  rcases settles file included with waits | ⟨was, idle⟩
  · exact .inl waits
  · rcases h before opened file was with waits | known
    · rw [idle] at waits
      exact absurd waits (by decide)
    · exact .inr known

theorem Accounts.mono (h : server.Accounts pending) {more : PathSet}
    (grows : ∀ file, pending.contains file = true → more.contains file = true) :
    server.Accounts more := by
  intro project opened file included
  exact (h project opened file included).imp_right (Or.imp_left (grows file))

/-- What the project includes may be compiled. -/
theorem eligible_of_includes {project : Project} (opened : server.project = some project)
    {file : Path} (included : project.includes file = true) :
    server.eligible.contains file = true := by
  rw [eligible, opened]
  dsimp only
  rw [Project.eligible, PathSet.contains_extend, PathSet.contains_collect,
    Project.contains_includedFiles, included, Bool.true_or]

/-! ## Passes -/

/-- A pass takes off what it starts from, and loses nothing else. -/
theorem Accounts.afterPass (h : server.Accounts pending) (input : PassSetup)
    (eligible : input.eligible = server.eligible) {left : PathSet}
    (starts : ∀ file, pending.contains file = true → left.contains file = true ∨
      (server.engine.startingDirty input).contains file = true) :
    (server.afterPass input).Accounts left := by
  intro project opened file included
  rw [project_afterPass] at opened
  rw [engine_afterPass]
  have here : input.eligible.contains file = true := by
    rw [eligible, eligible_of_includes opened included]
  rcases h project opened file included with waits | isPending | known
  · exact .inl waits
  · exact .inr ((starts file isPending).imp_right (Engine.knows_of_starting here))
  · exact .inr (.inr (known.run here))

/-- Handing over what waits moves it from the project to the pass. -/
theorem Accounts.takeWaiting (h : server.Accounts pending) :
    server.takeWaiting.1.Accounts (pending.join server.takeWaiting.2) := by
  intro project opened file included
  rw [engine_takeWaiting, PathSet.contains_join, Bool.or_eq_true]
  rw [Server.takeWaiting.eq_def] at opened ⊢
  cases was : server.project with
  | none =>
      rw [was] at opened
      cases opened.symm.trans was
  | some before =>
      rw [was] at opened
      obtain rfl := Option.some.inj opened
      rcases h before was file included with waits | isPending | known
      · exact .inr (.inl (.inr waits))
      · exact .inr (.inl (.inl isPending))
      · exact .inr (.inr known)

theorem Accounts.compile (h : server.Accounts pending) (disk : Disk) (scope : PassScope) :
    (server.compile disk scope).1.Accounts pending := by
  cases scope with
  | files paths => exact h.afterPass (server.passSetup disk paths false) rfl fun _ => .inl
  | project =>
      cases valid : server.gate.isValid with
      | false =>
          rw [Server.compile, setup?, if_neg]
          · exact h
          · rw [show server.allows .project = server.gate.isValid from rfl, valid]
            exact Bool.false_ne_true
      | true =>
          rw [compile_project valid]
          refine h.takeWaiting.afterPass _ rfl fun file isPending => ?_
          rw [PathSet.contains_join, Bool.or_eq_true] at isPending
          refine isPending.imp_right fun waits => ?_
          rw [Engine.contains_startingDirty, show (server.recompileSetup disk).dirty.contains file
            = true from waits]
          rfl

/-- A pass over the pending files leaves nothing pending. -/
theorem Accounts.compile_pending (h : server.Accounts pending) (disk : Disk) :
    (server.compile disk (.files pending)).1.Accounts ∅ := by
  refine h.afterPass (server.passSetup disk pending false) rfl fun file isPending => ?_
  rw [Engine.contains_startingDirty, show (server.passSetup disk pending false).dirty.contains file
    = true from isPending]
  exact .inr rfl

end Server

/-! ## Turns -/

namespace Turn

variable {turn : Turn} {pending : PathSet}

theorem accounts_runPass (h : turn.server.Accounts pending) (scope : PassScope) :
    (turn.runPass scope).server.Accounts pending := by
  have compiled := h.compile turn.disk scope
  rw [runPass]
  split
  · exact compiled.of_eq rfl rfl
  · exact compiled

theorem accounts_runQueue (h : turn.server.Accounts pending) :
    turn.runQueue.server.Accounts pending :=
  List.foldlRecOn (motive := fun turn : Turn => turn.server.Accounts pending) _ _
    (h.of_eq rfl rfl) fun _ h path _ => accounts_runPass h (.files {path})

theorem accounts_compile (h : turn.server.Accounts pending) (scope : PassScope) :
    (turn.compile scope).server.Accounts pending :=
  accounts_runPass (accounts_runQueue h) scope

theorem accounts_compile_pending (h : turn.server.Accounts pending) :
    (turn.compile (.files pending)).server.Accounts ∅ := by
  rw [compile, runPass, if_pos (show turn.runQueue.server.allows (.files pending) = true from rfl)]
  exact ((accounts_runQueue h).compile_pending turn.runQueue.disk).of_eq rfl rfl

theorem accounts_settle (h : turn.server.Accounts pending) (followUp : FollowUp) :
    (turn.settle followUp).server.Accounts pending := by
  rw [server_settle, Server.clear_fst]
  exact (accounts_runQueue h).of_eq rfl rfl

theorem accounts_compileSoon (h : turn.server.Accounts pending) (path : Path) :
    (turn.compileSoon path).server.Accounts pending := by
  rw [compileSoon]
  dsimp only
  split
  · apply accounts_compile
    exact h.of_eq rfl rfl
  · exact h.of_eq rfl rfl

/-! ## Requests -/

/-- A project that changed is put in place. -/
theorem accounts_withProject (h : turn.server.Accounts pending) {before after : Project}
    (opened : turn.server.project = some before) (settles : before.Settles after) (disk : Disk) :
    ({ turn.withProject after with disk := disk } : Turn).server.Accounts pending :=
  h.of_settles opened settles rfl rfl

theorem accounts_changeExclusions (h : turn.server.Accounts ∅)
    (operation : Project → Disk → Project.Changed)
    (settles : ∀ (project : Project) disk, project.Settles (operation project disk).project) :
    (turn.changeExclusions operation).server.Accounts ∅ := by
  have changed {project : Project} (opened : turn.server.project = some project) :=
    accounts_withProject h opened (settles project turn.disk) (operation project turn.disk).disk
  rcases turn.changeExclusions_cases operation with
    ⟨-, same⟩ | ⟨project, opened, ⟨followUp, -, same⟩ | ⟨error, -, same⟩⟩ <;> rw [same]
  · exact h
  · apply accounts_settle
    exact changed opened
  · exact changed opened

theorem accounts_changeRoots (h : turn.server.Accounts ∅)
    (operation : Project → Disk → Project.Changed)
    (settles : ∀ (project : Project) disk, project.Settles (operation project disk).project) :
    (turn.changeRoots operation).server.Accounts ∅ := by
  have changed {project : Project} (opened : turn.server.project = some project) :=
    accounts_withProject h opened (settles project turn.disk) (operation project turn.disk).disk
  rcases turn.changeRoots_cases operation with
    ⟨-, same⟩ | ⟨project, opened, ⟨followUp, -, same⟩ | ⟨error, -, same⟩⟩ <;> rw [same]
  · exact h
  · exact accounts_compile (accounts_settle (changed opened) _) .project
  · exact changed opened

theorem accounts_setMacros (h : turn.server.Accounts ∅) (macros : List ProjectMacro) :
    (turn.setMacros macros).server.Accounts ∅ := by
  rw [setMacros]
  split
  · exact h
  · rename_i project opened
    exact h.of_settles opened (Project.settles_addAllWaiting project _) rfl rfl

/-- What waits is handed over before the follow-up of the settings, and compiled after that. -/
theorem accounts_reloadSettings (h : turn.server.Accounts ∅) :
    turn.reloadSettings.server.Accounts ∅ := by
  rw [reloadSettings]
  split
  · exact h
  · rename_i project opened
    have settles := project.settles_reload turn.disk
    generalize project.reload turn.disk = reloading at settles
    obtain ⟨reloaded, followUp⟩ := reloading
    have put : (turn.withProject reloaded).server.Accounts ∅ := h.of_settles opened settles rfl rfl
    have taken : (turn.withProject reloaded.takeWaiting.1).server.Accounts reloaded.waiting :=
      put.takeWaiting.mono fun file waits => by
        rwa [PathSet.contains_join, Std.ExtTreeSet.contains_empty, Bool.false_or] at waits
    have settled := accounts_settle taken followUp
    dsimp only
    split
    · rename_i none
      rw [show reloaded.waiting = ∅ from Std.ExtTreeSet.isEmpty_iff.1 none] at settled
      exact settled
    · exact accounts_compile_pending settled

/-- The file of a closed document may be forgotten, but the pass starts from it. -/
theorem accounts_didClose (h : turn.server.Accounts ∅) (path : Path) :
    (turn.didClose path).server.Accounts ∅ := by
  rw [didClose]
  dsimp only
  split
  · apply accounts_compile
    exact h.of_eq rfl rfl
  · rename_i project opened
    apply accounts_compile_pending
    have kept : ∀ later : Server, later.project = some (project.dropMissing turn.disk path).1 →
        later.engine = turn.server.engine → later.Accounts {path} := by
      intro later same engine current opened' file included
      obtain rfl := Option.some.inj (same.symm.trans opened')
      rw [engine]
      rcases h project opened file (Project.includes_of_dropMissing included) with
        waits | isPending | known
      · rcases project.dropMissing_waiting turn.disk path waits with here | waits
        · exact .inr (.inl (by simp [here]))
        · exact .inl waits
      · rw [Std.ExtTreeSet.contains_empty] at isPending
        exact absurd isPending (by decide)
      · exact .inr (.inr known)
    split <;> exact kept _ rfl rfl

theorem accounts_didChangeConfiguration (h : turn.server.Accounts ∅) (settings : Json) :
    (turn.didChangeConfiguration settings).server.Accounts ∅ := by
  rw [didChangeConfiguration]
  split
  · exact h
  · rename_i config _
    dsimp only
    split
    · exact h.of_eq rfl rfl
    · rename_i project opened
      split
      · apply accounts_settle
        exact h.of_settles opened (project.settles_discover turn.disk config.limits) rfl rfl
      · exact h.of_eq rfl rfl

/-- A key that makes the license valid tells all that is included to wait. -/
theorem setLicenseKey_eq (h : turn.server.Accounts ∅) (key : String) :
    ∃ begun : Turn, begun.server.Accounts ∅ ∧
      begun.server.project.isSome = turn.server.project.isSome ∧
      turn.setLicenseKey key = if !turn.server.gate.isValid && begun.server.gate.isValid &&
        begun.server.project.isSome then begun.compile .project else begun := by
  rw [setLicenseKey]
  generalize turn.server.gate.takeKey License.isValidKey
    (License.fileStore turn.server.licenseFile) turn.disk key = outcome
  obtain ⟨gate, events, disk⟩ := outcome
  dsimp only
  generalize chosen : (if !turn.server.gate.isValid && gate.isValid then
    turn.server.project.map Project.addAllWaiting else turn.server.project) = project
  let server : Server := { turn.server with gate := gate, project := project }
  let begun : Turn := notifyAll ⟨server, disk, turn.sent⟩ (events.map Notice.ofLicense)
  have taken : begun.server = server := server_notifyAll _ _
  refine ⟨begun, ?_, ?_, ?_⟩
  · rw [taken]
    split at chosen
    · rintro _ rfl file included
      obtain ⟨before, -, rfl⟩ := Option.map_eq_some_iff.1 chosen
      exact .inl (Project.waiting_addAllWaiting included)
    · exact h.of_eq chosen.symm rfl
  · rw [taken]
    show project.isSome = turn.server.project.isSome
    rw [← chosen]
    split
    · exact Option.isSome_map
    · rfl
  · rw [taken]

/-- A project that opens waits for all of its files, and the engine starts anew. -/
theorem setProjectPath_eq {path : Path} {project : Project} {followUp : FollowUp}
    (opens : Project.openRoot turn.disk path turn.server.config.limits = .ok (project, followUp)) :
    ∃ begun : Turn, begun.server.Accounts ∅ ∧ turn.setProjectPath path =
      if begun.server.gate.isValid then begun.compile .project else begun := by
  refine ⟨turn.opened project followUp, ?_, setProjectPath_of_opens opens⟩
  rw [server_opened]
  rintro _ ⟨⟩ file included
  exact .inl (Project.waiting_openRoot opens included)

/-- A turn that may have ended in a full pass. -/
theorem accounts_ite {begun : Turn} (h : begun.server.Accounts ∅) (compiles : Prop)
    [Decidable compiles] :
    (if compiles then begun.compile .project else begun).server.Accounts ∅ := by
  split
  · exact accounts_compile h .project
  · exact h

theorem accounts_setLicenseKey (h : turn.server.Accounts ∅) (key : String) :
    (turn.setLicenseKey key).server.Accounts ∅ := by
  obtain ⟨begun, accounts, -, same⟩ := setLicenseKey_eq h key
  rw [same]
  exact accounts_ite accounts _

theorem accounts_setProjectPath (h : turn.server.Accounts ∅) (path : Path) :
    (turn.setProjectPath path).server.Accounts ∅ := by
  cases opens : Project.openRoot turn.disk path turn.server.config.limits with
  | ok opened =>
      obtain ⟨begun, accounts, same⟩ := setProjectPath_eq opens
      rw [same]
      exact accounts_ite accounts _
  | error error =>
      rw [← disk_runQueue turn, ← Server.config_of_stage
        (Server.Moves.stage_eq ((moves_runQueue turn).trans (Server.moves_lineUp _)))] at opens
      rw [setProjectPath]
      dsimp only
      rw [opens]
      exact (accounts_runQueue h).of_eq rfl rfl

/-- **Every request leaves all files accounted for.** -/
theorem accounts_handle (h : turn.server.Accounts ∅) (request : Request) :
    (turn.handle request).server.Accounts ∅ := by
  cases request with
  | startUp options =>
      show (turn.startUp options).server.Accounts ∅
      rw [startUp]
      split
      · exact h
      · exact h.of_eq rfl rfl
  | setLicenseKey key => exact accounts_setLicenseKey h key
  | setProjectPath path => exact accounts_setProjectPath h path
  | excludeResource path =>
      exact accounts_changeExclusions h _ fun project disk => project.settles_excludePath disk path
  | includeResource path =>
      exact accounts_changeExclusions h _ fun project disk => project.settles_includePath disk path
  | addRootUnit path =>
      exact accounts_changeRoots h _ fun project disk => project.settles_addRoot disk path
  | removeRootUnit path =>
      exact accounts_changeRoots h _ fun project disk => project.settles_removeRoot disk path
  | recompile => exact accounts_compile h .project
  | setMacros macros => exact accounts_setMacros h macros
  | reloadSettings => exact accounts_reloadSettings h
  | didOpen path version text =>
      cases path with
      | none => exact h
      | some path =>
          show (turn.didOpen path version text).server.Accounts ∅
          apply accounts_compileSoon
          exact h.of_eq rfl rfl
  | didChange path version text =>
      cases path with
      | none => exact h
      | some path =>
          cases text with
          | none => exact h
          | some text =>
              show (turn.didChange path version text).server.Accounts ∅
              apply accounts_compileSoon
              exact h.of_eq rfl rfl
  | didClose path =>
      cases path with
      | none => exact h
      | some path => exact accounts_didClose h path
  | didChangeConfiguration settings => exact accounts_didChangeConfiguration h settings
  | startedUp => exact h
  | shutdown => exact h.of_eq rfl rfl
  | diagnosticNames path line => exact h
  | completion path cursor => exact h
  | definition path cursor => exact h

theorem accounts_wait (h : turn.server.Accounts ∅) (milliseconds : Nat) :
    (turn.wait milliseconds).server.Accounts ∅ := by
  have advances : ∀ times : List Nat, (times.foldl advance turn).server.Accounts ∅ :=
    fun times => List.foldlRecOn (motive := fun later : Turn => later.server.Accounts ∅)
      times advance h fun later accounts time _ =>
        accounts_runQueue (accounts.of_eq rfl rfl)
  rw [wait]
  split
  · exact h
  · exact (advances _).of_eq rfl rfl

/-! ## Turns that end in a full pass -/

/-- The turn ends in a pass over the project, which begins with all files accounted for. -/
def EndsInFullPass (after : Turn) : Prop :=
  ∃ begun : Turn, begun.server.Accounts ∅ ∧ begun.server.gate.isValid = true ∧
    after = begun.compile .project

theorem gate_ite (begun : Turn) (compiles : Prop) [Decidable compiles] :
    (if compiles then begun.compile .project else begun).server.gate = begun.server.gate := by
  split
  · exact Server.gate_of_stage (moves_compile begun .project).stage_eq
  · rfl

theorem endsInFullPass_setLicenseKey (h : turn.server.Accounts ∅) {key : String}
    (invalid : turn.server.gate.isValid = false) (opened : turn.server.project.isSome = true)
    (valid : (turn.setLicenseKey key).server.gate.isValid = true) :
    (turn.setLicenseKey key).EndsInFullPass := by
  obtain ⟨begun, accounts, kept, same⟩ := setLicenseKey_eq h key
  rw [same, gate_ite] at valid
  refine ⟨begun, accounts, valid, ?_⟩
  rw [same, if_pos]
  rw [invalid, valid, kept, opened]
  rfl

theorem endsInFullPass_setProjectPath {path : Path} {project : Project} {followUp : FollowUp}
    (opens : Project.openRoot turn.disk path turn.server.config.limits = .ok (project, followUp))
    (valid : (turn.setProjectPath path).server.gate.isValid = true) :
    (turn.setProjectPath path).EndsInFullPass := by
  obtain ⟨begun, accounts, same⟩ := setProjectPath_eq opens
  rw [same, gate_ite] at valid
  exact ⟨begun, accounts, valid, by rw [same, if_pos valid]⟩

theorem endsInFullPass_changeRoots (h : turn.server.Accounts ∅) {project : Project}
    {operation : Project → Disk → Project.Changed} {followUp : FollowUp}
    (settles : project.Settles (operation project turn.disk).project)
    (opened : turn.server.project = some project)
    (accepted : (operation project turn.disk).followUp = .ok followUp)
    (valid : turn.server.gate.isValid = true) :
    (turn.changeRoots operation).EndsInFullPass := by
  have changed := accounts_withProject h opened settles (operation project turn.disk).disk
  rw [changeRoots, opened]
  dsimp only
  rw [change, accepted]
  dsimp only
  refine ⟨_, accounts_settle changed _, ?_, rfl⟩
  rw [Server.gate_of_stage (moves_settle _ _).stage_eq]
  exact valid

end Turn

namespace Server

/-! ## What a full pass leaves -/

/-- **Along every run all files are accounted for.** -/
theorem Reached.accounts {state : Server × Disk} (h : Reached state) : state.1.Accounts ∅ := by
  obtain ⟨config, licenseFile, gate, disk, events, rfl⟩ := h
  refine List.foldlRecOn (motive := fun state : Server × Disk => state.1.Accounts ∅) events react
    (fun project opened => absurd opened nofun) fun state accounts event _ => ?_
  let turn : Turn := ⟨state.1, state.2, []⟩
  have begun : turn.server.Accounts ∅ := accounts
  cases event with
  | request request => exact Turn.accounts_handle begun request
  | pause milliseconds => exact Turn.accounts_wait begun milliseconds
  | edit disk => exact accounts

/-- Where nothing waits, what is tracked is known. -/
theorem Accounts.knows {server : Server} (h : server.Accounts ∅)
    (idle : ∀ project, server.project = some project → project.waiting = ∅) {file : Path}
    (tracked : server.tracks file = true) : server.engine.Knows file := by
  rw [tracks] at tracked
  cases opened : server.project with
  | none =>
      rw [opened] at tracked
      exact absurd tracked Bool.false_ne_true
  | some project =>
      rw [opened, Option.any_some, Project.contains_includedFiles] at tracked
      have none : ∀ path, (∅ : PathSet).contains path ≠ true := fun path contains =>
        absurd (Std.ExtTreeSet.contains_empty.symm.trans contains) (by decide)
      rcases h project opened file tracked with waits | isPending | known
      · rw [idle project opened] at waits
        exact absurd waits (none file)
      · exact absurd isPending (none file)
      · exact known

/-- A file that may be compiled is tracked, or it is an open document. -/
theorem tracks_or_contains_of_eligible {server : Server} {file : Path}
    (eligible : server.eligible.contains file = true) :
    server.tracks file = true ∨ server.documents.contains file = true := by
  have isOpen : ∀ admits : Path → Bool,
      (server.documents.paths.filter admits).contains file = true →
        server.documents.contains file = true := by
    intro admits kept
    obtain ⟨path, member, same⟩ := List.contains_iff_exists_mem_beq.1 kept
    have listed := List.contains_iff_exists_mem_beq.2 ⟨path, List.mem_of_mem_filter member, same⟩
    rwa [Documents.paths, Std.ExtTreeMap.contains_keys] at listed
  rw [Server.eligible.eq_def] at eligible
  rw [tracks]
  cases opened : server.project with
  | none =>
      rw [opened] at eligible
      dsimp only at eligible
      rw [PathSet.contains_collect] at eligible
      exact .inr (isOpen _ eligible)
  | some project =>
      rw [opened] at eligible
      dsimp only at eligible
      rw [Project.eligible, PathSet.contains_extend, PathSet.contains_collect,
        Bool.or_eq_true] at eligible
      exact eligible.imp id (isOpen _)

/-- What a full pass leaves: which roots have a unit. -/
structure LeavesCompiled (after : Server) : Prop where
  /-- Tracked roots have units. -/
  tracked : ∀ root, after.engine.roots.contains root = true → after.tracks root = true →
    (after.engine.unit? root).isSome = true
  /-- A root without a unit is an open document. -/
  document : ∀ root, after.engine.roots.contains root = true → after.engine.unit? root = none →
    after.documents.contains root = true
  /-- Roots without a unit were roots without a unit when the pass began, and it did not compile
  them: every file that it saw first, and every file that became a root, has a unit. -/
  left : ∃ (begun : Server) (disk : Disk),
    let pass := begun.engine.run (begun.recompileSetup disk)
    after.engine = pass.1 ∧
      ∀ root, after.engine.roots.contains root = true → (after.engine.unit? root = none ↔
        begun.engine.roots.contains root = true ∧ begun.engine.unit? root = none ∧
          pass.2.compiled.contains root = false)
  /-- If all files that may be compiled are tracked, then all roots have units. -/
  complete : (∀ file, after.eligible.contains file = true → after.tracks file = true) →
    ∀ root, after.engine.roots.contains root = true → (after.engine.unit? root).isSome = true

end Server

theorem Turn.leavesCompiled_of_endsInFullPass {after : Turn} (ends : after.EndsInFullPass)
    (truthful : after.server.Truthful) : after.server.LeavesCompiled := by
  obtain ⟨begun, accounts, valid, rfl⟩ := ends
  have all := accounts_compile accounts .project
  have ran := begun.server_compile_project valid
  generalize begun.compile .project = after at truthful all ran ⊢
  let server := begun.runQueue.server
  let input := server.recompileSetup begun.disk
  have engine : after.server.engine = (server.engine.run input).1 := by
    rw [ran, Server.engine_lineUp, Server.engine_afterPass, Server.engine_takeWaiting]
  have stage : after.server.stage = server.takeWaiting.1.stage := by
    rw [ran]
    exact (Server.moves_lineUp _).stage_eq.trans (Server.stage_afterPass _ _)
  -- All that waited was handed over, so what is tracked is known.
  have idle : ∀ project, after.server.project = some project → project.waiting = ∅ := by
    intro project opened
    rw [ran] at opened
    exact Server.waiting_takeWaiting ((Server.project_afterPass _ input).symm.trans opened)
  have tracked : ∀ root, after.server.engine.roots.contains root = true →
      after.server.tracks root = true → (after.server.engine.unit? root).isSome = true :=
    fun root isRoot tracks => (all.knows idle tracks).2 isRoot
  have eligible : ∀ root, after.server.engine.roots.contains root = true →
      after.server.eligible.contains root = true := by
    intro root isRoot
    have here := truthful.eligible root isRoot
    rw [engine, Engine.contains_eligible_run] at here
    rw [Server.eligible_of_stage stage]
    exact here
  refine ⟨tracked, ?_, ⟨server, begun.disk, engine, ?_⟩, ?_⟩
  · intro root isRoot none
    refine (Server.tracks_or_contains_of_eligible (eligible root isRoot)).resolve_left ?_
    intro tracks
    have unit := tracked root isRoot tracks
    rw [none] at unit
    exact absurd unit (by decide)
  · intro root isRoot
    rw [engine] at isRoot ⊢
    exact Engine.unit?_eq_none_iff rfl isRoot
  · exact fun complete root isRoot => tracked root isRoot (complete root (eligible root isRoot))

namespace Server

/-! ## Requests that run a full pass -/

/-- A full pass runs for a request: for a recompile, for a key that makes the license valid, for a
project that opens, and for a root that is added or removed, once the license is valid. -/
inductive RunsFullPass (before after : Server × Disk) : Request → Prop where
  | recompile (valid : before.1.gate.isValid = true) : RunsFullPass before after .recompile
  | setLicenseKey {key : String} (invalid : before.1.gate.isValid = false)
      (opened : before.1.project.isSome = true) (valid : after.1.gate.isValid = true) :
      RunsFullPass before after (.setLicenseKey key)
  | setProjectPath {path : Path} {project : Project} {followUp : FollowUp}
      (opens : Project.openRoot before.2 path before.1.config.limits = .ok (project, followUp))
      (valid : after.1.gate.isValid = true) : RunsFullPass before after (.setProjectPath path)
  | addRootUnit {path : Path} {project : Project} {followUp : FollowUp}
      (opened : before.1.project = some project)
      (accepted : (project.addRoot before.2 path).followUp = .ok followUp)
      (valid : before.1.gate.isValid = true) : RunsFullPass before after (.addRootUnit path)
  | removeRootUnit {path : Path} {project : Project} {followUp : FollowUp}
      (opened : before.1.project = some project)
      (accepted : (project.removeRoot before.2 path).followUp = .ok followUp)
      (valid : before.1.gate.isValid = true) : RunsFullPass before after (.removeRootUnit path)

theorem RunsFullPass.endsInFullPass {turn : Turn} {request : Request} {disk : Disk}
    (runs : RunsFullPass (turn.server, turn.disk) ((turn.handle request).server, disk) request)
    (accounts : turn.server.Accounts ∅) : (turn.handle request).EndsInFullPass := by
  cases runs with
  | recompile valid => exact ⟨turn, accounts, valid, rfl⟩
  | @setLicenseKey key invalid opened valid =>
      rw [Turn.handle] at valid ⊢
      dsimp only at valid
      exact Turn.endsInFullPass_setLicenseKey accounts invalid opened valid
  | @setProjectPath path project followUp opens valid =>
      rw [Turn.handle] at valid ⊢
      dsimp only at valid
      exact Turn.endsInFullPass_setProjectPath opens valid
  | @addRootUnit path project followUp opened accepted valid =>
      exact Turn.endsInFullPass_changeRoots accounts (project.settles_addRoot turn.disk path) opened
        accepted valid
  | @removeRootUnit path project followUp opened accepted valid =>
      exact Turn.endsInFullPass_changeRoots accounts (project.settles_removeRoot turn.disk path)
        opened accepted valid

/-- A run that opens a document in an excluded folder, includes the folder again and then opens
another document, whose pass sees the first one without compiling it. -/
def includedRun : Server × Disk :=
  afterEvents (opening .initial "license.txt" ⟨.valid, none, true⟩, testsDisk)
    [.request (.setProjectPath (.ofString "/p")),
      .request (.excludeResource (.ofString "/p/tb")),
      .request (.didOpen (some (.ofString "/p/tb/new.sv")) 1 "`BAR\n"),
      .request (.includeResource (.ofString "/p/tb")),
      .request (.didOpen (some (.ofString "/p/top.sv")) 1 "module top;\nendmodule\n")]

end Server

end SvServer
