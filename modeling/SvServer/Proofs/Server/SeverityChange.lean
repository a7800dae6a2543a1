import SvServer.Proofs.Engine.CrossFile
import SvServer.Proofs.Engine.Grounded
import SvServer.Proofs.Server.MacroChange

/-!
# What a change of the configured severity reaches

How grave a redefined macro is can be configured while the server runs. Taking in a configuration
makes no file wait, so the recompile after it reaches those roots only that something else left
dirty. All other roots keep the units that they had, with the severity that was configured when
these were compiled, and what they say stays shown. A header that is read by roots of both kinds is
shown the same diagnostic twice.
-/

/-!
## How grave the diagnostics of an engine are

How grave a redefined macro is can be configured, and a unit takes the severity in when it is
compiled. So each unit holds to one severity, the one that was configured at its last compile, and a
file that several units read may have diagnostics of several of them. All else is an error, also
what the checks over the project find.
-/

namespace SvServer

/-- The diagnostic is as grave as configured, if redefined macros are given this severity. -/
def Diagnostic.IsGraded (redefined : Severity) (d : Diagnostic) : Prop :=
  d.severity = d.name.severity redefined

instance (redefined : Severity) (d : Diagnostic) : Decidable (d.IsGraded redefined) :=
  inferInstanceAs (Decidable (_ = _))

/-- Diagnostics that say the same are equally grave. -/
theorem Diagnostic.isGraded_congr {a b : Diagnostic} (same : (a == b) = true)
    (redefined : Severity) : a.IsGraded redefined ↔ b.IsGraded redefined := by
  obtain ⟨-, -, severity, name, -⟩ := beq_iff_parts.1 same
  rw [IsGraded, IsGraded, severity, name]

/-- **What the checks over a project find is an error**, whatever is configured. -/
theorem CrossFile.isGraded_of_mem_diagnostics {units : List UnitReport} {path : Path}
    {d : Diagnostic} (found : d ∈ entriesOf (diagnostics units) path) (redefined : Severity) :
    d.IsGraded redefined := by
  obtain ⟨news, entries, added⟩ := entriesOf_diagnostics units path
  rw [entries, Diagnostic.sort, List.mem_mergeSort, List.mem_append] at found
  rcases found with repeated | unknown
  · obtain ⟨name, -, listed⟩ := mem_repetitions.1 (List.mem_filter.1 repeated).1
    obtain ⟨-, place, -, reports⟩ := reports_of_mem_redefinitions listed
    rw [Diagnostic.IsGraded, reports.severity, reports.name]
    rfl
  · obtain ⟨i, -, rfl⟩ := List.mem_map.1 (added.only d unknown).1
    rfl

namespace Engine

variable {engine : Engine} {path : Path} {d : Diagnostic}

/-- Each unit holds to one severity for redefined macros. -/
def GradedUnits (engine : Engine) : Prop :=
  ∀ root unit, engine.unit? root = some unit →
    ∃ redefined, ∀ d ∈ unit.diagnostics, d.IsGraded redefined

theorem gradedUnits_empty : GradedUnits empty := fun _ _ kept => absurd kept nofun

theorem GradedUnits.run (h : engine.GradedUnits) (input : PassSetup) :
    (engine.run input).1.GradedUnits := by
  intro root unit kept
  rcases unit?_run_cases kept with before | ⟨spelled, rfl⟩
  · exact h root unit before
  · exact ⟨input.redefinedSeverity, severity_compileUnit (settings input) spelled⟩

/-- **A unit that a pass compiled holds to the severity of the pass.** -/
theorem isGraded_of_compiled {input : PassSetup} {root : Path} {unit : UnitReport}
    (compiled : (engine.run input).2.compiled.contains root = true)
    (kept : (engine.run input).1.unit? root = some unit) :
    ∀ d ∈ unit.diagnostics, d.IsGraded input.redefinedSeverity := by
  obtain ⟨spelled, -, fresh⟩ := unit?_of_compiled compiled
  cases Option.some.inj (fresh.symm.trans kept)
  exact severity_compileUnit (settings input) spelled

/-- A root has reported the diagnostic, which is about a file that it read. -/
structure Says (engine : Engine) (root path : Path) (d : Diagnostic) : Prop where
  isRoot : engine.roots.contains root = true
  reads : (engine.index.readersOf path).contains root = true
  said : ∃ unit, engine.unit? root = some unit ∧ d ∈ unit.diagnostics
  here : (d.path == path) = true

/-- A root says what its unit has, up to the spelling of paths. -/
theorem exists_says_of_any {root : Path} (isRoot : engine.roots.contains root = true)
    (reads : (engine.index.readersOf path).contains root = true)
    (said : (engine.unit? root).any (fun unit => unit.diagnostics.any (d == ·)) = true)
    (here : (d.path == path) = true) :
    ∃ known, (d == known) = true ∧ engine.Says root path known := by
  obtain ⟨unit, kept, said⟩ := (Option.any_eq_true _ _).1 said
  obtain ⟨known, listed, same⟩ := List.any_eq_true.1 said
  exact ⟨known, same, isRoot, reads, ⟨unit, kept, listed⟩,
    BEq.trans (BEq.symm (Diagnostic.beq_iff_parts.1 same).1) here⟩

/-- What a root says about a file is among the diagnostics of the file. -/
theorem Says.exists_mem_diagnosticsOf {root : Path} (h : engine.Says root path d) :
    ∃ known ∈ engine.diagnosticsOf path, (d == known) = true := by
  obtain ⟨unit, kept, said⟩ := h.said
  obtain ⟨member, listed, same⟩ := PathSet.exists_mem_toList h.reads
  have spelled : engine.unit? member = some unit := by
    rw [← kept]
    exact (PathMap.getElem?_congr _ same).symm
  rw [diagnosticsOf_eq]
  refine exists_mem_dropRepeats (fun _ => BEq.rfl) ?_
  rw [Diagnostic.sort, List.mem_mergeSort]
  exact List.mem_append_left _ (List.mem_flatMap.2 ⟨unit,
    List.mem_filterMap.2 ⟨member, listed, spelled⟩, List.mem_filter.2 ⟨said, h.here⟩⟩)

/-- **What is not as grave as configured was said by a root**, if the checks over the project found
the rest. -/
theorem exists_says_of_mem_diagnosticsOf (inverse : engine.index.Inverse)
    (readers : engine.ReadByRoots) (cross : engine.cross = CrossFile.diagnostics engine.rootUnits)
    (known : d ∈ engine.diagnosticsOf path) {redefined : Severity}
    (ungraded : ¬ d.IsGraded redefined) : ∃ root, engine.Says root path d := by
  rcases mem_diagnosticsOf known with ⟨root, unit, reads, kept, said, here⟩ | checked
  · exact ⟨root, readers.isRoot inverse reads, reads, ⟨unit, kept, said⟩, here⟩
  · rw [cross] at checked
    exact absurd (CrossFile.isGraded_of_mem_diagnostics checked redefined) ungraded

end Engine

end SvServer

namespace SvServer

/-! ## Taking in a configuration -/

namespace Turn

/-- The server comes to hold the configuration that was sent, if it can be read, before it looks
for files anew. -/
theorem stage_didChangeConfiguration (turn : Turn) (settings : Json) :
    ∃ configured : Server,
      (turn.didChangeConfiguration settings).server.stage = configured.stage ∧
      configured.config = (Config.ofJson? settings).getD turn.server.config ∧
      configured.gate = turn.server.gate := by
  rw [didChangeConfiguration]
  cases Config.ofJson? settings with
  | none => exact ⟨_, rfl, rfl, rfl⟩
  | some config =>
      dsimp only
      split
      · exact ⟨_, rfl, rfl, rfl⟩
      · split
        · exact ⟨_, (moves_settle _ _).stage_eq, rfl, rfl⟩
        · exact ⟨_, rfl, rfl, rfl⟩

/-- The configuration that comes to hold is the one that was sent, if it can be read. -/
theorem config_didChangeConfiguration (turn : Turn) (settings : Json) :
    (turn.didChangeConfiguration settings).server.config =
      (Config.ofJson? settings).getD turn.server.config := by
  obtain ⟨configured, stage, config, -⟩ := turn.stage_didChangeConfiguration settings
  exact (Server.config_of_stage stage).trans config

/-- The license is as it was. -/
theorem gate_didChangeConfiguration (turn : Turn) (settings : Json) :
    (turn.didChangeConfiguration settings).server.gate = turn.server.gate := by
  obtain ⟨configured, stage, -, gate⟩ := turn.stage_didChangeConfiguration settings
  exact (Server.gate_of_stage stage).trans gate

/-- **A configuration changes nothing else**, unless it comes with other limits of discovery. -/
theorem unmarked_didChangeConfiguration (turn : Turn) (settings : Json)
    (alike : turn.server.config.limitsDiffer
      (turn.didChangeConfiguration settings).server.config = false) :
    (turn.didChangeConfiguration settings).server.project = turn.server.project ∧
      (turn.didChangeConfiguration settings).server.engine = turn.server.engine ∧
      (turn.didChangeConfiguration settings).server.publisher = turn.server.publisher := by
  rw [config_didChangeConfiguration] at alike
  rw [didChangeConfiguration]
  cases read : Config.ofJson? settings with
  | none => exact ⟨rfl, rfl, rfl⟩
  | some config =>
      rw [read, Option.getD_some] at alike
      dsimp only
      cases opened : turn.server.project with
      | none => exact ⟨rfl, rfl, rfl⟩
      | some project =>
          dsimp only
          rw [if_neg (by rw [alike]; decide)]
          exact ⟨rfl, rfl, rfl⟩

end Turn

namespace Server

/-! ## What a recompile shows -/

/-- Each unit holds to one severity for redefined macros. -/
def Graded (server : Server) : Prop := server.engine.GradedUnits

variable {before after server : Server}

theorem Graded.of_eq (engine : after.engine = before.engine)
    (_ : after.publisher = before.publisher) (h : before.Graded) : after.Graded := by
  rw [Graded, engine]
  exact h

theorem Graded.move (move : Move before after) (h : before.Graded) : after.Graded := by
  cases move with
  | idle stage engine publisher => exact h.of_eq engine publisher
  | pass input revision =>
      show (before.afterPass input).engine.GradedUnits
      rw [engine_afterPass]
      exact Engine.GradedUnits.run h input
  | clear paths =>
      rw [Graded, clear_fst]
      exact h

/-- **Along every run each unit holds to one severity.** -/
theorem Reached.graded {state : Server × Disk} (h : Reached state) : state.1.Graded := by
  obtain ⟨config, licenseFile, gate, disk, events, rfl⟩ := h
  have fresh : ∀ server : Server, server.engine = .empty → server.publisher = .empty →
      server.Graded := by
    intro server engine _
    rw [Graded, engine]
    exact Engine.gradedUnits_empty
  exact invariant_afterEvents Graded.of_eq fresh Graded.move events (fresh _ rfl rfl)

/-- The files whose diagnostics a recompile looks at again. -/
def recompiledFiles (server : Server) (disk : Disk) : PathSet :=
  ((server.queueRun disk).engine.run ((server.queueRun disk).recompileSetup disk)).2.touched

/-- **What a root says is shown** once the engine's diagnostics of the file were sent, as far as the
rules let it through. -/
theorem exists_shown_of_sent {root path spelled : Path} {d : Diagnostic}
    (stated : server.engine.Says root path d) (same : (spelled == path) = true)
    (sent : server.publisher.last? path =
      some (server.publishRules.kept spelled (server.engine.diagnosticsOf path)))
    (allowed : server.publishRules.excludes path = false)
    (visible : server.publishRules.hides d.name.text = false) :
    ∃ shown ∈ server.shown path, (d == shown) = true := by
  obtain ⟨known, listed, alike⟩ := stated.exists_mem_diagnosticsOf
  have name : known.name = d.name := (Diagnostic.beq_iff_parts.1 alike).2.2.2.1.symm
  refine ⟨known, ?_, alike⟩
  rw [Server.shown, Publisher.shown, sent, Option.getD_some, PublishRules.kept,
    PublishRules.excludes_congr _ same, allowed, if_neg Bool.false_ne_true, List.mem_filter, name,
    visible]
  exact ⟨listed, rfl⟩

/-- **What a recompile sends**: a file that it looks at again is shown what the engine has for it,
as far as the rules let it through, and every other file what it was shown. -/
theorem last?_recompile (valid : server.gate.isValid = true) (disk : Disk) {path : Path}
    (hasUri : (Uri.ofPath? path).isSome = true) :
    let after := (react (server, disk) (.request .recompile)).1
    ((server.recompiledFiles disk).contains path = true → ∃ spelled : Path,
      (spelled == path) = true ∧ after.publisher.last? path =
        some (after.publishRules.kept spelled (after.engine.diagnosticsOf path))) ∧
    ((server.recompiledFiles disk).contains path = false →
      after.publisher.last? path = (server.queueRun disk).publisher.last? path) := by
  intro after
  let taken := (server.queueRun disk).takeWaiting.1
  let input := (server.queueRun disk).recompileSetup disk
  have revision : ∀ path, input.sources.revision path = taken.documents.revision? path :=
    fun path => revision_sources _ disk path
  have rules : after.publishRules = taken.publishRules :=
    publishRules_of_stage (stage_recompile.trans ((server.queueRun disk).stage_takeWaiting.trans
      (server.stage_queueRun disk)).symm)
  have before : taken.publisher = (server.queueRun disk).publisher := by
    show (server.queueRun disk).takeWaiting.1.publisher = _
    rw [takeWaiting.eq_def]
    cases (server.queueRun disk).project <;> rfl
  have ran : after = (taken.afterPass input).lineUp :=
    congrArg Prod.fst (react_recompile valid disk)
  have engine : after.engine = (taken.afterPass input).engine := by rw [ran, engine_lineUp]
  have publisher : after.publisher = (taken.afterPass input).publisher := by
    rw [ran]
    rfl
  have files : (taken.engine.run input).2.touched = server.recompiledFiles disk := by
    rw [show taken.engine = _ from engine_takeWaiting _]
    rfl
  rw [rules, engine, publisher, ← files, ← before]
  exact ⟨last?_afterPass_of_touched revision hasUri, last?_afterPass_of_untouched revision⟩

section Recompile

variable (valid : server.gate.isValid = true) {disk : Disk}

include valid

/-- **A root that the recompile compiled holds to the configured severity.** -/
theorem isGraded_of_recompiled {root : Path} {unit : UnitReport}
    (compiled : (server.recompiledRoots disk).contains root = true)
    (kept : (react (server, disk) (.request .recompile)).1.engine.unit? root = some unit) :
    ∀ d ∈ unit.diagnostics, d.IsGraded server.config.redefinedSeverity := by
  rw [engine_recompile valid] at kept
  have severity : ((server.queueRun disk).recompileSetup disk).redefinedSeverity =
      server.config.redefinedSeverity :=
    congrArg Unit.Settings.redefinedSeverity (settings_recompileSetup server disk)
  rw [← severity]
  exact Engine.isGraded_of_compiled compiled kept

/-- **What is shown with another severity than the configured one** was said by a root that the
recompile did not compile. -/
theorem exists_says_of_shown_recompile (truthful : server.Truthful) {path : Path} {d : Diagnostic}
    (shown : d ∈ (react (server, disk) (.request .recompile)).1.shown path)
    (ungraded : ¬ d.IsGraded server.config.redefinedSeverity) :
    ∃ root said, (said == d) = true ∧ (server.recompiledRoots disk).contains root = false ∧
      (react (server, disk) (.request .recompile)).1.engine.Says root path said := by
  have after : (react (server, disk) (.request .recompile)).1.Truthful := truthful.react _
  obtain ⟨said, known, content⟩ := List.mem_map.1 (after.shown path d shown)
  have same : (said == d) = true := Diagnostic.beq_iff_content.2 content
  rw [← Diagnostic.isGraded_congr same] at ungraded
  obtain ⟨root, stated⟩ := Engine.exists_says_of_mem_diagnosticsOf after.inverse after.readers
    (cross_recompile valid) known ungraded
  refine ⟨root, said, same, ?_, stated⟩
  rw [Bool.eq_false_iff]
  intro compiled
  obtain ⟨unit, kept, listed⟩ := stated.said
  exact ungraded (isGraded_of_recompiled valid compiled kept said listed)

/-- **All that is shown is as grave as configured**, if what the roots say is that were not
compiled. -/
theorem isGraded_of_shown_recompile (truthful : server.Truthful)
    (agree : ∀ root path d, (server.recompiledRoots disk).contains root = false →
      (react (server, disk) (.request .recompile)).1.engine.Says root path d →
        d.IsGraded server.config.redefinedSeverity) {path : Path} {d : Diagnostic}
    (shown : d ∈ (react (server, disk) (.request .recompile)).1.shown path) :
    d.IsGraded server.config.redefinedSeverity := by
  by_contra ungraded
  obtain ⟨root, said, same, spared, stated⟩ :=
    exists_says_of_shown_recompile valid truthful shown ungraded
  exact ungraded ((Diagnostic.isGraded_congr same _).1 (agree root path said spared stated))

/-- **What is said and was shown stays shown**, as far as the rules let it through. -/
theorem exists_shown_recompile (truthful : server.Truthful) {root path : Path} {d : Diagnostic}
    (stated : (react (server, disk) (.request .recompile)).1.engine.Says root path d)
    (was : ∃ shown ∈ (server.queueRun disk).shown path, (d == shown) = true)
    (allowed : (react (server, disk) (.request .recompile)).1.publishRules.excludes path = false)
    (visible : (react (server, disk) (.request .recompile)).1.publishRules.hides d.name.text =
      false) :
    ∃ shown ∈ (react (server, disk) (.request .recompile)).1.shown path, (d == shown) = true := by
  have hasUri : (Uri.ofPath? path).isSome = true := by
    by_contra noUri
    obtain ⟨shown, member, -⟩ := was
    rw [shown_of_no_uri (truthful_queueRun truthful disk).hasUri
      ((Bool.not_eq_true _).mp noUri)] at member
    exact absurd member List.not_mem_nil
  obtain ⟨sent, still⟩ := last?_recompile valid disk hasUri
  cases touched : (server.recompiledFiles disk).contains path with
  | true =>
      obtain ⟨spelled, same, sent⟩ := sent touched
      exact exists_shown_of_sent stated same sent allowed visible
  | false =>
      rw [Server.shown, Publisher.shown, still touched]
      exact was

end Recompile

/-! ## A change of the configuration and the recompile after it -/

/-- What holds after settings were sent, which gave `changed`, and a recompile then gave `after`.
The severity of redefined macros that is configured then is that of `after`. -/
structure TakesSeverity (settings : Json) (before changed after : Server × Disk) : Prop where
  /-- Configured is what was sent, if it can be read. -/
  config : after.1.config = (Config.ofJson? settings).getD before.1.config
  /-- Nothing else changed with it, unless the limits of discovery did. -/
  unmarked : before.1.config.limitsDiffer after.1.config = false →
    changed.1.project = before.1.project ∧ changed.1.engine = before.1.engine ∧
      changed.1.publisher = before.1.publisher
  /-- Compiled are the roots that a dirty file leads to: one that waited, came or went, or a new
  root. -/
  compiled_iff : ∀ root, (changed.1.recompiledRoots changed.2).contains root = true ↔
    ∃ file ∈ (changed.1.recompileBegun changed.2).dirty.toList,
      ((changed.1.recompileBegun changed.2).engine.rootsAffectedBy file).contains root = true
  /-- A root that was not compiled keeps the unit it had. -/
  kept : ∀ root, after.1.engine.roots.contains root = true →
    (changed.1.recompiledRoots changed.2).contains root = false →
      after.1.engine.unit? root = (changed.1.queueRun changed.2).engine.unit? root
  /-- Each unit holds to one severity, -/
  units : after.1.engine.GradedUnits
  /-- and that of a root that was compiled to the configured one. -/
  fresh : ∀ root unit, (changed.1.recompiledRoots changed.2).contains root = true →
    after.1.engine.unit? root = some unit →
      ∀ d ∈ unit.diagnostics, d.IsGraded after.1.config.redefinedSeverity
  /-- Whatever is shown with another severity was said by a root that was not compiled. -/
  shown : ∀ path, ∀ d ∈ after.1.shown path, ¬ d.IsGraded after.1.config.redefinedSeverity →
    ∃ root said, (said == d) = true ∧
      (changed.1.recompiledRoots changed.2).contains root = false ∧
      after.1.engine.Says root path said
  /-- What a root says stays shown, if it was shown and the rules let it through. -/
  stays : ∀ root path d, after.1.engine.Says root path d →
    (∃ was ∈ (changed.1.queueRun changed.2).shown path, (d == was) = true) →
    after.1.publishRules.excludes path = false → after.1.publishRules.hides d.name.text = false →
      ∃ still ∈ after.1.shown path, (d == still) = true
  /-- If all that such roots say is as grave as configured, so is all that is shown, and no two
  diagnostics differ in their severity alone. -/
  right : (∀ root path d, (changed.1.recompiledRoots changed.2).contains root = false →
      after.1.engine.Says root path d → d.IsGraded after.1.config.redefinedSeverity) →
    ∀ path, (∀ d ∈ after.1.shown path, d.name = .macroRedefined →
        d.severity = after.1.config.redefinedSeverity) ∧
      ∀ d ∈ after.1.shown path, ∀ other ∈ after.1.shown path, d.name = other.name →
        d.severity = other.severity

theorem react_didChangeConfiguration (state : Server × Disk) (settings : Json) :
    (react state (.request (.didChangeConfiguration settings))).1 =
      (Turn.didChangeConfiguration ⟨state.1, state.2, []⟩ settings).server := rfl

/-- **What a change of the configured severity reaches.** Along every run, with a valid license:
sending settings and recompiling leaves redefined macros shown with another severity than the
configured one only where a root that was not compiled says so, and what it says stays shown. -/
theorem takesSeverity_of_recompile {state : Server × Disk} (reached : Reached state)
    (valid : state.1.gate.isValid = true) (settings : Json) :
    TakesSeverity settings state (react state (.request (.didChangeConfiguration settings)))
      (react (react state (.request (.didChangeConfiguration settings)))
        (.request .recompile)) := by
  have truthful := reached.truthful.react (.request (.didChangeConfiguration settings))
  have graded : (react (react state (.request (.didChangeConfiguration settings)))
      (.request .recompile)).1.Graded := by
    obtain ⟨config, licenseFile, gate, disk, events, rfl⟩ := reached
    exact Reached.graded ⟨config, licenseFile, gate, disk, events ++
      [.request (.didChangeConfiguration settings), .request .recompile], by
        rw [afterEvents, afterEvents, List.foldl_append]; rfl⟩
  have config : (react state (.request (.didChangeConfiguration settings))).1.config =
      (Config.ofJson? settings).getD state.1.config :=
    Turn.config_didChangeConfiguration ⟨state.1, state.2, []⟩ settings
  have unmarked := Turn.unmarked_didChangeConfiguration ⟨state.1, state.2, []⟩ settings
  have valid' : (react state (.request (.didChangeConfiguration settings))).1.gate.isValid =
      true := by
    rw [react_didChangeConfiguration, Turn.gate_didChangeConfiguration]
    exact valid
  rw [← react_didChangeConfiguration] at unmarked
  generalize react state (.request (.didChangeConfiguration settings)) = changed at *
  obtain ⟨server, disk⟩ := changed
  have configured : (react (server, disk) (.request .recompile)).1.config = server.config :=
    config_of_stage stage_recompile
  constructor
  · exact configured.trans config
  · rw [configured]
    exact unmarked
  · exact fun root => contains_recompiledRoots
  · exact fun root isRoot spared => unit?_of_not_recompiled valid' isRoot spared
  · exact graded
  · intro root unit compiled kept
    rw [configured]
    exact isGraded_of_recompiled valid' compiled kept
  · rw [configured]
    exact fun path d listed => exists_says_of_shown_recompile valid' truthful listed
  · intro root path d stated was listed visible
    exact exists_shown_recompile valid' truthful stated was listed visible
  · rw [configured]
    intro agree path
    constructor
    · intro d listed name
      rw [isGraded_of_shown_recompile valid' truthful agree listed, name]
      rfl
    · intro d listed other listed' name
      rw [isGraded_of_shown_recompile valid' truthful agree listed,
        isGraded_of_shown_recompile valid' truthful agree listed', name]

/-- A disk with a project of two files that read one header, which defines a macro twice. -/
def headerDisk : Disk where
  top := .folder "p" true
    (.file "a.sv" ⟨some "`include \"h.svh\"\n", 17, 0⟩
      (.file "b.sv" ⟨some "`include \"h.svh\"\n", 17, 0⟩
        (.file "h.svh" ⟨some "`define M 1\n`define M 2\n", 24, 0⟩ .empty))) .empty
  current := .ofString "/"
  now := 1

/-- A run that opens the project, and then leaves one of the two files out and takes it in again. -/
def severityRun : Server × Disk :=
  afterEvents (opening .initial "license.txt" ⟨.valid, none, true⟩, headerDisk)
    [.request (.setProjectPath (.ofString "/p")),
      .request (.excludeResource (.ofString "/p/a.sv")),
      .request (.includeResource (.ofString "/p/a.sv"))]

/-- Settings that make a redefined macro an error. -/
def errorSettings : Json := .object [("macroRedefinedSeverity", .string "error")]

theorem reached_severityRun : Reached severityRun := ⟨_, _, _, _, _, rfl⟩

theorem takesSeverity_of_severityRun :
    severityRun.1.gate.isValid = true ∧
      TakesSeverity errorSettings severityRun
        (react severityRun (.request (.didChangeConfiguration errorSettings)))
        (react (react severityRun (.request (.didChangeConfiguration errorSettings)))
          (.request .recompile)) :=
  have valid : severityRun.1.gate.isValid = true := by decide +kernel
  ⟨valid, takesSeverity_of_recompile reached_severityRun valid errorSettings⟩

/-- The second definition in the header, as a diagnostic. -/
def redefinition (severity : Severity) : Diagnostic :=
  ⟨.ofString "/p/h.svh", ⟨⟨1, 8⟩, ⟨1, 9⟩⟩, severity, .macroRedefined, "macro 'M' redefined"⟩

/-- **A header is shown one redefined macro with two severities.** -/
theorem two_severities_in_header :
    let after := react (react severityRun (.request (.didChangeConfiguration errorSettings)))
      (.request .recompile)
    severityRun.1.project.isSome = true ∧ severityRun.1.gate.isValid = true ∧
      after.1.config.redefinedSeverity = .error ∧
      (∃ said ∈ after.1.shown (.ofString "/p/h.svh"), (redefinition .error == said) = true) ∧
      ∃ said ∈ after.1.shown (.ofString "/p/h.svh"), (redefinition .warning == said) = true := by
  intro after
  let changed := react severityRun (.request (.didChangeConfiguration errorSettings))
  let path := Path.ofString "/p/h.svh"
  let tellers : List (Path × Severity) :=
    [(.ofString "/p/a.sv", .error), (.ofString "/p/b.sv", .warning)]
  have run : (severityRun.1.project.isSome = true ∧ severityRun.1.gate.isValid = true ∧
      after.1.config.redefinedSeverity = .error) ∧
      changed.1.gate.isValid = true ∧ (Uri.ofPath? path).isSome = true ∧
      (changed.1.recompiledFiles changed.2).contains path = true ∧
      after.1.publishRules.excludes path = false ∧
      after.1.publishRules.hides DiagnosticName.macroRedefined.text = false ∧
      ∀ teller ∈ tellers, after.1.engine.roots.contains teller.1 = true ∧
        (after.1.engine.index.readersOf path).contains teller.1 = true ∧
        (after.1.engine.unit? teller.1).any
          (fun unit => unit.diagnostics.any (redefinition teller.2 == ·)) = true := by
    decide +kernel
  obtain ⟨⟨opened, licensed, config⟩, valid, hasUri, touched, allowed, visible, tell⟩ := run
  obtain ⟨spelled, same, sent⟩ := (last?_recompile valid changed.2 hasUri).1 touched
  have known : ∀ teller ∈ tellers,
      ∃ said ∈ after.1.shown path, (redefinition teller.2 == said) = true := by
    intro teller listed
    obtain ⟨isRoot, reads, said⟩ := tell teller listed
    obtain ⟨d, alike, stated⟩ := Engine.exists_says_of_any isRoot reads said BEq.rfl
    have name : DiagnosticName.macroRedefined = d.name :=
      (Diagnostic.beq_iff_parts.1 alike).2.2.2.1
    obtain ⟨shown, member, equal⟩ :=
      exists_shown_of_sent stated same sent allowed (name ▸ visible)
    exact ⟨shown, member, BEq.trans alike equal⟩
  exact ⟨opened, licensed, config, known _ List.mem_cons_self,
    known _ (List.mem_cons_of_mem _ List.mem_cons_self)⟩

end Server

end SvServer
