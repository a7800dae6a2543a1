import SvServer.Proofs.Project.Waiting
import SvServer.Proofs.Server.Passes

/-!
# What a change of macros reaches

New macros take effect with the next recompile. Setting them makes every file that is tracked and
included wait for that recompile; open documents that are not tracked take part in compilations, but
they do not wait. So the recompile brings the unit of a root up to date exactly if something that
waits leads to the root. All tracked roots are reached, and so are open documents that read tracked
files; an open document that stands alone keeps the unit and the diagnostics that it had under the
old macros.
-/

namespace SvServer

/-- The engine holds for a root what compiling it gives, under some spelling of the root. -/
def Engine.UpToDate (engine : Engine) (settings : Unit.Settings) (root : Path) : Prop :=
  ∃ spelled : Path, (spelled == root) = true ∧
    engine.unit? root = some (compileUnit settings spelled)

/-! ## Setting macros -/

namespace Project

/-- After macros were set the project has them, and all that is included was told to wait. -/
theorem setMacros_fst (project : Project) (disk : Disk) (given : List ProjectMacro) :
    ∃ marked : Project, (project.setMacros disk given).1 = marked.addAllWaiting ∧
      marked.macros = .ofList given :=
  ⟨_, rfl, rfl⟩

theorem macros_setMacros (project : Project) (disk : Disk) (given : List ProjectMacro) :
    (project.setMacros disk given).1.macros = MacroTable.ofList given := by
  obtain ⟨marked, replaced, macros⟩ := project.setMacros_fst disk given
  rw [replaced, ← macros]
  rfl

/-- **Every included file waits after macros were set.** -/
theorem waiting_setMacros (project : Project) (disk : Disk) (given : List ProjectMacro)
    {file : Path} (included : (project.setMacros disk given).1.includedFiles.contains file = true) :
    (project.setMacros disk given).1.waiting.contains file = true := by
  obtain ⟨marked, replaced, -⟩ := project.setMacros_fst disk given
  rw [contains_includedFiles, replaced] at included
  rw [replaced]
  exact waiting_addAllWaiting included

end Project

/-! ## Recompiling -/

namespace Server

/-- The server when a recompile begins its pass: what had lined up has run. -/
def queueRun (server : Server) (disk : Disk) : Server := (⟨server, disk, []⟩ : Turn).runQueue.server

/-- The roots that a recompile compiles. -/
def recompiledRoots (server : Server) (disk : Disk) : PathSet :=
  ((server.queueRun disk).engine.run ((server.queueRun disk).recompileSetup disk)).2.compiled

/-- The pass of a recompile after its first step, when it is known what is dirty. -/
def recompileBegun (server : Server) (disk : Disk) : Engine.Pass :=
  (server.queueRun disk).engine.restructure ((server.queueRun disk).recompileSetup disk)

theorem stage_queueRun (server : Server) (disk : Disk) :
    (server.queueRun disk).stage = server.stage :=
  (Turn.moves_runQueue ⟨server, disk, []⟩).stage_eq

theorem project_queueRun (server : Server) (disk : Disk) :
    (server.queueRun disk).project = server.project :=
  Turn.project_runQueue ⟨server, disk, []⟩

theorem truthful_queueRun {server : Server} (h : server.Truthful) (disk : Disk) :
    (server.queueRun disk).Truthful :=
  h.moves (Turn.moves_runQueue ⟨server, disk, []⟩)

/-- **What a recompile does**, once the license is valid. -/
theorem react_recompile {server : Server} (valid : server.gate.isValid = true) (disk : Disk) :
    react (server, disk) (.request .recompile) =
      (((server.queueRun disk).takeWaiting.1.afterPass
        ((server.queueRun disk).recompileSetup disk)).lineUp, disk) := by
  let turn : Turn := ⟨server, disk, []⟩
  show ((turn.compile .project).server, (turn.compile .project).disk) = _
  rw [turn.server_compile_project valid, turn.disk_compile]
  rfl

theorem engine_recompile {server : Server} (valid : server.gate.isValid = true) (disk : Disk) :
    (react (server, disk) (.request .recompile)).1.engine =
      ((server.queueRun disk).engine.run ((server.queueRun disk).recompileSetup disk)).1 := by
  rw [react_recompile valid, engine_lineUp, engine_afterPass, engine_takeWaiting]

/-- The settings under which a pass compiles units at present. -/
def settings (server : Server) (disk : Disk) : Unit.Settings :=
  ⟨server.sources disk, server.macros, server.config.redefinedSeverity⟩

theorem settings_of_stage {before after : Server} (h : after.stage = before.stage) (disk : Disk) :
    after.settings disk = before.settings disk := by
  rw [settings, settings, sources_of_stage h, macros_of_stage h, config_of_stage h]

/-- A recompile compiles under the settings that hold before and after it. -/
theorem settings_recompileSetup (server : Server) (disk : Disk) :
    Engine.settings ((server.queueRun disk).recompileSetup disk) = server.settings disk :=
  settings_of_stage
    ((server.queueRun disk).stage_takeWaiting.trans (server.stage_queueRun disk)) disk

/-! ## Which roots a recompile brings up to date -/

section Recompile

variable {server : Server} (valid : server.gate.isValid = true) {disk : Disk}

/-- A recompile compiles the roots that a dirty file leads to. -/
theorem contains_recompiledRoots {root : Path} :
    (server.recompiledRoots disk).contains root = true ↔
      ∃ file ∈ (server.recompileBegun disk).dirty.toList,
        ((server.recompileBegun disk).engine.rootsAffectedBy file).contains root = true := by
  rw [recompiledRoots, Engine.compiled_run, Engine.contains_rootsToCompile]
  rfl

include valid

/-- A root that is not compiled keeps its unit. -/
theorem unit?_of_not_recompiled {root : Path}
    (isRoot : (react (server, disk) (.request .recompile)).1.engine.roots.contains root = true)
    (spared : (server.recompiledRoots disk).contains root = false) :
    (react (server, disk) (.request .recompile)).1.engine.unit? root =
      (server.queueRun disk).engine.unit? root := by
  rw [engine_recompile valid] at isRoot ⊢
  exact Engine.unit?_of_not_compiled isRoot spared

/-- **A root is up to date after a recompile if it was compiled, or was up to date before.** -/
theorem upToDate_recompile_iff {root : Path}
    (isRoot : (react (server, disk) (.request .recompile)).1.engine.roots.contains root = true) :
    (react (server, disk) (.request .recompile)).1.engine.UpToDate (server.settings disk) root ↔
      (server.recompiledRoots disk).contains root = true ∨
        (server.queueRun disk).engine.UpToDate (server.settings disk) root := by
  rw [engine_recompile valid] at isRoot ⊢
  rw [recompiledRoots, ← settings_recompileSetup]
  cases compiled : ((server.queueRun disk).engine.run
      ((server.queueRun disk).recompileSetup disk)).2.compiled.contains root with
  | true => exact ⟨fun _ => .inl rfl, fun _ => Engine.unit?_of_compiled compiled⟩
  | false =>
      rw [Engine.UpToDate, Engine.unit?_of_not_compiled isRoot compiled]
      exact ⟨.inr, fun h => h.resolve_left Bool.false_ne_true⟩

/-- **A root is compiled if a waiting file leads to it**: the root itself, or one that it read. -/
theorem recompiled_of_waiting (truthful : server.Truthful) {project : Project}
    (opened : server.project = some project) {root file : Path}
    (isRoot : (react (server, disk) (.request .recompile)).1.engine.roots.contains root = true)
    (waits : project.waiting.contains file = true)
    (leads : (file == root) = true ∨
      ((server.queueRun disk).engine.index.filesOf root).contains file = true) :
    (server.recompiledRoots disk).contains root = true := by
  rw [engine_recompile valid] at isRoot
  have dirty : ((server.queueRun disk).recompileSetup disk).dirty.contains file = true := by
    show (server.queueRun disk).takeWaiting.2.contains file = true
    rw [takeWaiting.eq_def, project_queueRun, opened]
    exact waits
  exact Engine.compiled_of_dirty (truthful_queueRun truthful disk).inverse isRoot dirty leads

/-- The roots after a recompile are eligible. -/
theorem eligible_recompile (truthful : server.Truthful) {root : Path}
    (isRoot : (react (server, disk) (.request .recompile)).1.engine.roots.contains root = true) :
    server.eligible.contains root = true := by
  rw [engine_recompile valid] at isRoot
  have eligible := Engine.eligible_of_isRoot (truthful_queueRun truthful disk).eligible isRoot
  rwa [← eligible_of_stage
    ((server.queueRun disk).stage_takeWaiting.trans (server.stage_queueRun disk))]

/-- A recompile checks the project as a whole. -/
theorem cross_recompile :
    (react (server, disk) (.request .recompile)).1.engine.cross =
      CrossFile.diagnostics (react (server, disk) (.request .recompile)).1.engine.rootUnits := by
  have checks : ((server.queueRun disk).recompileSetup disk).crossFile = true := by
    show (server.queueRun disk).takeWaiting.1.gate.isValid = true
    rw [← valid, gate_of_stage
      ((server.queueRun disk).stage_takeWaiting.trans (server.stage_queueRun disk))]
  rw [engine_recompile valid, Engine.cross_run, checks, if_pos rfl]

/-- **What is shown comes from the units of the roots**, by themselves or taken together. -/
theorem shown_recompile (truthful : server.Truthful) {path : Path} {d : Diagnostic}
    (shown : d ∈ (react (server, disk) (.request .recompile)).1.shown path) :
    let units := (react (server, disk) (.request .recompile)).1.engine.rootUnits
    ∃ said : Diagnostic, (said == d) = true ∧ ((∃ unit ∈ units, said ∈ unit.diagnostics) ∨
      said ∈ (CrossFile.diagnostics units)[path]?.getD []) := by
  intro units
  have after : (react (server, disk) (.request .recompile)).1.Truthful := truthful.react _
  obtain ⟨said, known, same⟩ := List.mem_map.1 (after.shown path d shown)
  refine ⟨said, by rw [Diagnostic.beq_eq_content, same]; exact BEq.rfl, ?_⟩
  rcases Engine.mem_diagnosticsOf known with ⟨root, unit, reads, kept, within, -⟩ | ofProject
  · have isRoot := after.readers.isRoot after.inverse reads
    exact .inl ⟨unit, Engine.mem_rootUnits isRoot kept, within⟩
  · rw [cross_recompile valid] at ofProject
    exact .inr ofProject

end Recompile

/-! ## A change of macros and the recompile after it -/

/-- What holds after macros were set, which gave `changed`, and a recompile then gave `after`.
Units are compared with what compiling gives under the new macros and the present texts. -/
structure TakesMacros (macros : List ProjectMacro) (changed after : Server × Disk) : Prop where
  settings : after.1.settings after.2 =
    ⟨after.1.sources after.2, .ofList macros, after.1.config.redefinedSeverity⟩
  /-- A root is up to date exactly if the recompile compiled it, or it was up to date by then. -/
  upToDate_iff : ∀ root, after.1.engine.roots.contains root = true →
    (after.1.engine.UpToDate (after.1.settings after.2) root ↔
      (changed.1.recompiledRoots changed.2).contains root = true ∨
        (changed.1.queueRun changed.2).engine.UpToDate (after.1.settings after.2) root)
  /-- Compiled are the roots that a dirty file leads to: one that waited, came or went, or a new
  root. -/
  compiled_iff : ∀ root, (changed.1.recompiledRoots changed.2).contains root = true ↔
    ∃ file ∈ (changed.1.recompileBegun changed.2).dirty.toList,
      ((changed.1.recompileBegun changed.2).engine.rootsAffectedBy file).contains root = true
  /-- A root that was not compiled keeps the unit it had. -/
  kept : ∀ root, after.1.engine.roots.contains root = true →
    (changed.1.recompiledRoots changed.2).contains root = false →
      after.1.engine.unit? root = (changed.1.queueRun changed.2).engine.unit? root
  /-- Tracked roots are compiled, and roots that read tracked files. -/
  reached : ∀ root file, after.1.engine.roots.contains root = true → after.1.tracks file = true →
    (file == root) = true ∨
      ((changed.1.queueRun changed.2).engine.index.filesOf root).contains file = true →
    (changed.1.recompiledRoots changed.2).contains root = true
  /-- If all files that take part are tracked, then every root is up to date. -/
  complete : (∀ file, after.1.eligible.contains file = true → after.1.tracks file = true) →
    ∀ root, after.1.engine.roots.contains root = true →
      after.1.engine.UpToDate (after.1.settings after.2) root
  /-- If every root is up to date, then all that any file is shown comes from units compiled under
  the new macros. -/
  shown : (∀ root, after.1.engine.roots.contains root = true →
      after.1.engine.UpToDate (after.1.settings after.2) root) →
    (∀ unit ∈ after.1.engine.rootUnits,
      ∃ root, unit = compileUnit (after.1.settings after.2) root) ∧
    ∀ path, ∀ d ∈ after.1.shown path, ∃ said : Diagnostic, (said == d) = true ∧
      ((∃ unit ∈ after.1.engine.rootUnits, said ∈ unit.diagnostics) ∨
        said ∈ (CrossFile.diagnostics after.1.engine.rootUnits)[path]?.getD [])

theorem react_setMacros {server : Server} {project : Project}
    (opened : server.project = some project) (disk : Disk) (macros : List ProjectMacro) :
    react (server, disk) (.request (.setMacros macros)) =
      ({ server with project := some (project.setMacros disk macros).1 },
        (project.setMacros disk macros).2.1) := by
  show ((Turn.setMacros ⟨server, disk, []⟩ macros).server,
    (Turn.setMacros ⟨server, disk, []⟩ macros).disk) = _
  rw [Turn.setMacros.eq_def]
  simp only [opened]
  generalize project.setMacros disk macros = outcome
  rfl

theorem stage_recompile {server : Server} {disk : Disk} :
    (react (server, disk) (.request .recompile)).1.stage = server.stage :=
  (Turn.moves_compile ⟨server, disk, []⟩ .project).stage_eq

theorem settings_recompile {server : Server} (valid : server.gate.isValid = true) (disk : Disk) :
    (react (server, disk) (.request .recompile)).1.settings
      (react (server, disk) (.request .recompile)).2 = server.settings disk := by
  rw [settings_of_stage stage_recompile, react_recompile valid]

/-- The units that compile under the settings of an engine's roots are the units of these roots. -/
theorem eq_compileUnit_of_upToDate {engine : Engine} {settings : Unit.Settings}
    (upToDate : ∀ root, engine.roots.contains root = true → engine.UpToDate settings root)
    {unit : UnitReport} (listed : unit ∈ engine.rootUnits) :
    ∃ root, unit = compileUnit settings root := by
  obtain ⟨root, isRoot, kept⟩ := List.mem_filterMap.1 listed
  obtain ⟨spelled, -, fresh⟩ := upToDate root (PathSet.contains_of_mem_toList isRoot)
  exact ⟨spelled, Option.some.inj (kept.symm.trans fresh)⟩

/-- A recompile takes macros in if all tracked files wait for it. -/
theorem takesMacros_of_waiting {server : Server} (truthful : server.Truthful)
    (valid : server.gate.isValid = true) (disk : Disk) {project : Project}
    (opened : server.project = some project) {macros : List ProjectMacro}
    (given : project.macros = .ofList macros)
    (waits : ∀ file, project.includedFiles.contains file = true →
      project.waiting.contains file = true) :
    TakesMacros macros (server, disk) (react (server, disk) (.request .recompile)) := by
  have settings := settings_recompile valid disk
  have waiting : ∀ file, (react (server, disk) (.request .recompile)).1.tracks file = true →
      project.waiting.contains file = true := by
    intro file tracked
    rw [tracks_of_stage stage_recompile, tracks, opened] at tracked
    exact waits file tracked
  constructor
  · rw [Server.settings, macros_of_stage stage_recompile, macros_eq, opened]
    exact congrArg (Unit.Settings.mk _ · _) given
  · intro root isRoot
    rw [settings]
    exact upToDate_recompile_iff valid isRoot
  · exact fun root => contains_recompiledRoots
  · exact fun root isRoot spared => unit?_of_not_recompiled valid isRoot spared
  · intro root file isRoot tracked leads
    exact recompiled_of_waiting valid truthful opened isRoot (waiting file tracked) leads
  · -- A root is eligible, hence tracked, hence waits and leads to itself.
    intro allTracked root isRoot
    have eligible := eligible_recompile valid truthful isRoot
    rw [← eligible_of_stage stage_recompile] at eligible
    rw [settings, upToDate_recompile_iff valid isRoot]
    exact .inl (recompiled_of_waiting valid truthful opened isRoot
      (waiting root (allTracked root eligible)) (.inl BEq.rfl))
  · intro upToDate
    refine ⟨fun unit listed => eq_compileUnit_of_upToDate upToDate listed, ?_⟩
    intro path d shown
    exact shown_recompile valid truthful shown

/-- **What a change of macros reaches.** Along every run, with a project open and the license
valid: setting macros and recompiling brings exactly those roots up to date that something tracked
leads to or that were up to date anyway, and all of them if every file that takes part is
tracked. -/
theorem takesMacros_of_recompile {state : Server × Disk} (reached : Reached state)
    (opened : state.1.project.isSome = true) (valid : state.1.gate.isValid = true)
    (macros : List ProjectMacro) :
    TakesMacros macros (react state (.request (.setMacros macros)))
      (react (react state (.request (.setMacros macros))) (.request .recompile)) := by
  obtain ⟨server, disk⟩ := state
  obtain ⟨project, opened⟩ := Option.isSome_iff_exists.1 opened
  have truthful := reached.truthful.react (.request (.setMacros macros))
  rw [react_setMacros opened] at truthful ⊢
  exact takesMacros_of_waiting truthful valid _ rfl (project.macros_setMacros disk macros)
    fun file => project.waiting_setMacros disk macros

/-- A disk with a project of one module. -/
def moduleDisk : Disk where
  top := .folder "p" true
    (.file "top.sv" ⟨some "module top;\nendmodule\n", 23, 0⟩ .empty) .empty
  current := .ofString "/"
  now := 1

/-- A run that opens the project, defines a macro and opens a document that is not on the disk. The
document has an unknown directive where the macro is defined. -/
def macroRun : Server × Disk :=
  afterEvents (opening .initial "license.txt" ⟨.valid, none, true⟩, moduleDisk)
    [.request (.setProjectPath (.ofString "/p")),
      .request (.setMacros [⟨"FOO", "1"⟩]),
      .request .recompile,
      .request (.didOpen (some (.ofString "/p/new.sv")) 1 "`ifdef FOO\n`BAR\n`endif\n")]

theorem reached_macroRun : Reached macroRun := ⟨_, _, _, _, _, rfl⟩

theorem takesMacros_of_macroRun :
    (macroRun.1.project.isSome = true ∧ macroRun.1.gate.isValid = true) ∧
      TakesMacros [] (react macroRun (.request (.setMacros [])))
        (react (react macroRun (.request (.setMacros []))) (.request .recompile)) :=
  have ready : macroRun.1.project.isSome = true ∧ macroRun.1.gate.isValid = true := by
    decide +kernel
  ⟨ready, takesMacros_of_recompile reached_macroRun ready.1 ready.2 []⟩

/-- **Macros leave a residue in open documents.** The macro is taken away, the project recompiled,
and the document still has the unit and the diagnostic that it had under the macro. -/
theorem residue_in_open_document :
    let after := react (react macroRun (.request (.setMacros []))) (.request .recompile)
    let path := Path.ofString "/p/new.sv"
    let fresh := compileUnit
      ⟨after.1.sources after.2, .ofList [], after.1.config.redefinedSeverity⟩ path
    macroRun.1.project.isSome = true ∧ macroRun.1.gate.isValid = true ∧
      after.1.engine.roots.contains path = true ∧ after.1.engine.unit? path ≠ some fresh ∧
      fresh.diagnostics.length = 0 ∧
      (after.1.shown path).map (·.name) = [.unknownDirective] := by
  intro after path fresh
  have run : (macroRun.1.project.isSome = true ∧ macroRun.1.gate.isValid = true) ∧
      (after.1.engine.roots.contains path = true ∧
        (after.1.engine.unit? path).map (·.diagnostics.length) = some 1) ∧
      fresh.diagnostics.length = 0 ∧
      (after.1.shown path).map (·.name) = [.unknownDirective] := by decide +kernel
  obtain ⟨⟨opened, valid⟩, ⟨isRoot, held⟩, none, shown⟩ := run
  refine ⟨opened, valid, isRoot, ?_, none, shown⟩
  intro same
  rw [same, Option.map_some, none] at held
  exact absurd held (by decide)

end Server

end SvServer
