import SvServer.Proofs.Project.Excluding
import SvServer.Proofs.Server.Runs

/-!
# What excluded files are shown

Nothing is published for a file that the open project excludes. So an excluded file that is shown
nothing stays so, along every run, for as long as it is excluded. The exclusion itself clears the
files that the project tracked as included; an open document that is not tracked has to be shown
nothing already, or it keeps what it is shown.
-/

namespace SvServer.Server

variable {before after : Server}

/-- Whether the open project excludes a file. -/
def excludes (server : Server) (file : Path) : Bool :=
  server.project.any fun project => project.isExcluded file

theorem excludes_publishRules (server : Server) (file : Path) :
    server.publishRules.excludes file = server.excludes file := by
  rw [publishRules.eq_def, excludes]
  cases server.project with
  | none => rfl
  | some project => exact project.isCoveredBy_exclusions file

theorem excludes_of_stage (h : after.stage = before.stage) (file : Path) :
    after.excludes file = before.excludes file := by
  rw [← excludes_publishRules, ← excludes_publishRules, publishRules_of_stage h]

/-! ## Nothing is shown, and that stays so -/

/-- **A move shows nothing for an excluded file that is shown nothing.** -/
theorem Move.shown_eq_nil (move : Move before after) {file : Path}
    (excluded : before.excludes file = true) (quiet : before.shown file = []) :
    after.shown file = [] := by
  cases move with
  | idle stage engine publisher =>
      rw [Server.shown, publisher]
      exact quiet
  | pass input revision =>
      show (before.afterPass input).shown file = []
      rw [Server.shown, Publisher.shown]
      cases uri : (Uri.ofPath? file).isSome with
      | false =>
          rw [publisher_afterPass revision, Publisher.last?_sendAll_of_no_uri _ _ uri]
          exact quiet
      | true =>
          cases touched : (before.engine.run input).2.touched.contains file with
          | false =>
              rw [last?_afterPass_of_untouched revision touched]
              exact quiet
          | true =>
              -- The file is published, with nothing let through.
              obtain ⟨spelled, same, last⟩ := last?_afterPass_of_touched revision uri touched
              rw [last, PublishRules.kept_of_excludes]
              · rfl
              · rw [PublishRules.excludes_congr _ same, excludes_publishRules, excluded]
  | clear paths =>
      rw [clear_fst, Server.shown, Publisher.shown, Publisher.last?_clearAll]
      split
      · rfl
      · exact quiet

theorem Moves.shown_eq_nil (moves : Moves before after) {file : Path}
    (excluded : after.excludes file = true) (quiet : before.shown file = []) :
    after.shown file = [] := by
  induction moves with
  | refl => exact quiet
  | tail _ move ih =>
      have still := excludes_of_stage move.stage_eq file
      rw [still] at excluded
      exact move.shown_eq_nil excluded (ih excluded)

/-- **One event.** A file that is shown nothing and is excluded afterwards is shown nothing
afterwards. -/
theorem shown_react (state : Server × Disk) (event : Event) {file : Path}
    (excluded : (react state event).1.excludes file = true) (quiet : state.1.shown file = []) :
    (react state event).1.shown file = [] := by
  obtain ⟨taken, takes, goesOn⟩ := handles_react state event
  apply goesOn.shown_eq_nil excluded
  rcases takes with ⟨-, publisher⟩ | ⟨-, publisher⟩
  · rw [shown, publisher]
    exact quiet
  · rw [shown, publisher]
    simp [Publisher.shown, Publisher.last?, Publisher.empty]

/-- **Every run.** A file that is shown nothing stays so for as long as it is excluded. -/
theorem shown_afterEvents {state : Server × Disk} (events : List Event) {file : Path}
    (excluded : ∀ first, first <+: events → (afterEvents state first).1.excludes file = true)
    (quiet : state.1.shown file = []) : (afterEvents state events).1.shown file = [] := by
  induction events generalizing state with
  | nil => exact quiet
  | cons event rest ih =>
      have now : (react state event).1.excludes file = true :=
        excluded [event] (List.prefix_append [event] rest)
      apply ih
      · intro first begins
        exact excluded (event :: first) (List.cons_prefix_cons.2 ⟨rfl, begins⟩)
      · exact shown_react state event now quiet

/-! ## The exclusion itself -/

/-- Whether an exclusion clears a file at or beneath its path: reading the settings again took the
file out, or the path was not excluded and its root tracked the file as included. -/
def exclusionClears (project : Project) (disk : Disk) (path file : Path) : Bool :=
  let fresh := project.refresh disk
  fresh.delta.nowExcluded.contains file ||
    (!(fresh.project.filesFor path).isExcluded path.normalize &&
      (fresh.project.filesFor path).isIncluded file)

/-- The turn of an exclusion that was accepted, before passes get their turn. -/
def exclusionTurn (server : Server) (changed : Project.Changed) : Turn :=
  ⟨{ server with project := some changed.project }, changed.disk, [.notice .exclusionsChanged]⟩

theorem react_excludeResource {server : Server} {project after : Project}
    (opened : server.project = some project) {disk saved : Disk} {path : Path}
    {followUp : FollowUp}
    (accepted : project.excludePath disk path = ⟨after, saved, .ok followUp⟩) :
    (react (server, disk) (.request (.excludeResource path))).1 =
      ((exclusionTurn server ⟨after, saved, .ok followUp⟩).runQueue.server.clear
        followUp.cleared.toList).1 := by
  rw [← Turn.server_settle]
  show (Turn.changeExclusions ⟨server, disk, []⟩ fun project disk =>
    project.excludePath disk path).server = _
  rw [Turn.changeExclusions.eq_def]
  simp only [opened, Turn.change, accepted]
  rfl

/-- A turn for which nothing has lined up leaves what is shown alone. -/
theorem publisher_runQueue {turn : Turn} (empty : turn.server.queue = []) :
    turn.runQueue.server.publisher = turn.server.publisher := by
  rw [Turn.runQueue, empty]
  rfl

/-- What a file received last, after an exclusion that was accepted: the clear, if there was one, or
else what it had received when the queued passes had run. -/
theorem last?_react_excludeResource {server : Server} {project after : Project}
    (opened : server.project = some project) {disk saved : Disk} {path : Path}
    {followUp : FollowUp}
    (accepted : project.excludePath disk path = ⟨after, saved, .ok followUp⟩) (file : Path) :
    (react (server, disk) (.request (.excludeResource path))).1.publisher.last? file =
      if followUp.cleared.contains file && (Uri.ofPath? file).isSome then some []
      else (exclusionTurn server
        ⟨after, saved, .ok followUp⟩).runQueue.server.publisher.last? file := by
  rw [react_excludeResource opened accepted, clear_fst, Publisher.last?_clearAll,
    Std.ExtTreeSet.contains_toList]

theorem excludes_react_excludeResource {server : Server} {project after : Project}
    (opened : server.project = some project) {disk saved : Disk} {path : Path}
    {followUp : FollowUp}
    (accepted : project.excludePath disk path = ⟨after, saved, .ok followUp⟩) {file : Path}
    (excluded : after.isExcluded file = true) :
    (react (server, disk) (.request (.excludeResource path))).1.excludes file = true := by
  rw [react_excludeResource opened accepted, ← Turn.server_settle,
    excludes_of_stage (Turn.moves_settle _ followUp).stage_eq]
  exact excluded

/-- What an exclusion comes to for a file at or beneath its path. -/
structure TakesOut (before : Server × Disk) (project : Project) (path file : Path)
    (after : Server × Disk) : Prop where
  excluded : after.1.excludes file = true
  /-- A file that the exclusion clears is shown nothing. -/
  cleared : exclusionClears project before.2 path file = true → after.1.shown file = []
  /-- So is a file that was shown nothing. -/
  quiet : before.1.shown file = [] → after.1.shown file = []
  /-- Where no pass has lined up, there are no other such files. -/
  exact : before.1.queue = [] → (after.1.shown file = [] ↔
    exclusionClears project before.2 path file = true ∨ before.1.shown file = [])
  /-- From then on a file that is shown nothing stays so for as long as it is excluded. -/
  stays : after.1.shown file = [] → ∀ events : List Event,
    (∀ first, first <+: events → (afterEvents after first).1.excludes file = true) →
      (afterEvents after events).1.shown file = []

/-- **What excluded files are shown.** Along every run, when an existing path under a root of the
open project is excluded. -/
theorem takesOut_of_excludeResource {state : Server × Disk} (reached : Reached state)
    {project : Project} (opened : state.1.project = some project) (path : Path)
    (under : ((project.refresh state.2).project.filesFor path).isUnderRoot path.normalize = true)
    (there : state.2.pathExists path.normalize = true) (file : Path)
    (beneath : file.isUnder path.normalize = true) :
    TakesOut state project path file (react state (.request (.excludeResource path))) := by
  have truthful := reached.truthful.react (.request (.excludeResource path))
  obtain ⟨server, disk⟩ := state
  obtain ⟨after, saved, followUp, accepted, outcome⟩ :=
    project.excludePath_accepted disk path under there
  obtain ⟨excludes, reported⟩ := outcome file beneath
  have last := last?_react_excludeResource opened accepted file
  have excluded := excludes_react_excludeResource opened accepted excludes
  have cleared : exclusionClears project disk path file = true →
      (react (server, disk) (.request (.excludeResource path))).1.shown file = [] := by
    intro clears
    cases uri : (Uri.ofPath? file).isSome with
    | false => exact shown_of_no_uri truthful.hasUri uri
    | true =>
        rw [shown, Publisher.shown, last, uri, reported.trans clears]
        rfl
  have quiet := shown_react (server, disk) (.request (.excludeResource path)) excluded
  constructor
  · exact excluded
  · exact cleared
  · exact quiet
  · intro empty
    refine ⟨?_, fun h => h.elim cleared quiet⟩
    intro nothing
    cases clears : exclusionClears project disk path file with
    | true => exact .inl rfl
    | false =>
        -- Without clears and queued passes the file is shown what it was shown.
        rw [shown, Publisher.shown, last, reported.trans clears, Bool.false_and,
          publisher_runQueue empty] at nothing
        exact .inr nothing
  · intro nothing events still
    exact shown_afterEvents events still nothing

/-- A disk with a project that has a folder of its own for tests. -/
def testsDisk : Disk where
  top := .folder "p" true (.file "top.sv" ⟨some "module top;\nendmodule\n", 23, 0⟩
    (.folder "tb" true (.file "a.sv" ⟨some "`A\n", 3, 0⟩ .empty) .empty)) .empty
  current := .ofString "/"
  now := 1

/-- A run that opens the project and, in the folder, a document that is not on the disk. The file
and the document each have an unknown directive. -/
def testsRun : Server × Disk :=
  afterEvents (opening .initial "license.txt" ⟨.valid, none, true⟩, testsDisk)
    [.request (.setProjectPath (.ofString "/p")),
      .request (.didOpen (some (.ofString "/p/tb/new.sv")) 1 "`BAR\n")]

theorem reached_testsRun : Reached testsRun := ⟨_, _, _, _, _, rfl⟩

/-- The run has a project open. -/
theorem isSome_testsRun : testsRun.1.project.isSome = true := by decide +kernel

/-- The project of the run. -/
def testsProject : Project := testsRun.1.project.get isSome_testsRun

/-- The file on the disk is cleared when its folder is excluded. -/
theorem takesOut_of_testsRun :
    let folder := Path.ofString "/p/tb"
    let file := Path.ofString "/p/tb/a.sv"
    (((testsProject.refresh testsRun.2).project.filesFor folder).isUnderRoot folder.normalize
        = true ∧
      testsRun.2.pathExists folder.normalize = true ∧ file.isUnder folder.normalize = true) ∧
    TakesOut testsRun testsProject folder file (react testsRun (.request (.excludeResource folder)))
    :=
  have known : (((testsProject.refresh testsRun.2).project.filesFor (.ofString "/p/tb")).isUnderRoot
        (Path.ofString "/p/tb").normalize = true ∧
      testsRun.2.pathExists (Path.ofString "/p/tb").normalize = true ∧
      (Path.ofString "/p/tb/a.sv").isUnder (Path.ofString "/p/tb").normalize = true) := by
    decide +kernel
  ⟨known, takesOut_of_excludeResource reached_testsRun (Option.some_get isSome_testsRun).symm _
    known.1 known.2.1 _ known.2.2⟩

/-- **An excluded document keeps its diagnostics.** The folder is excluded, the file in it is shown
nothing any more, and the open document beside it still has its diagnostic. -/
theorem diagnostics_of_excluded_document :
    let after := react testsRun (.request (.excludeResource (.ofString "/p/tb")))
    (testsRun.1.project.isSome = true ∧ testsRun.2.pathExists (.ofString "/p/tb") = true) ∧
      (Path.ofString "/p/tb/new.sv").isUnder (.ofString "/p/tb") = true ∧
      after.1.excludes (.ofString "/p/tb/new.sv") = true ∧
      (after.1.shown (.ofString "/p/tb/a.sv")).length = 0 ∧
      (after.1.shown (.ofString "/p/tb/new.sv")).map (·.name) = [.unknownDirective] := by
  decide +kernel

end SvServer.Server
