import Mathlib.Data.List.Induction
import SvServer.Proofs.Documents
import SvServer.Proofs.Engine.Indexed
import SvServer.Proofs.Engine.Places
import SvServer.Proofs.Engine.Project
import SvServer.Proofs.Include.Sources
import SvServer.Proofs.Unit.Changes

/-!
# What the units of an engine stand on

No unit has found anything that needs the whole project. And if every pass is told which files have
another text, all that the units declare stands at tokens of the texts as they are now: a unit that is
kept has read no file that changed. So declarations that begin at one place also end there.
-/

/-!
## What a unit compile finds

A unit compile looks at the text of its files only. So nothing that it finds needs the whole
project: no diagnostic of a unit is about a name that is declared twice or about an unknown module.
How grave it is follows from its name and the settings: a redefined macro is as grave as configured,
and all else is an error. And what a unit declares stands in a file that it read, at a token of the
text that the file has.
-/

namespace SvServer

namespace Unit

variable {settings : Settings} {before after : State}

/-- All that was found so far is about the text of the files, and as grave as configured. -/
def State.Local (redefined : Severity) (state : State) : Prop :=
  ∀ d ∈ state.result.diagnostics,
    d.name.isCrossFile = false ∧ d.severity = d.name.severity redefined

/-- All that was declared so far stands in files that were read. -/
def State.Grounded (sources : Sources) (state : State) : Prop :=
  ∀ d ∈ state.result.declarations, d.Stands sources ∧
    state.result.filesRead.contains d.path = true

theorem Change.local (change : Change settings before after)
    (h : before.Local settings.redefinedSeverity) : after.Local settings.redefinedSeverity := by
  cases change with
  | report found isLocal => exact fun d member => (List.mem_append.1 member).elim (h d) (isLocal d)
  | _ => exact h

theorem Change.grounded (change : Change settings before after)
    (h : before.Grounded settings.sources) : after.Grounded settings.sources := by
  have stays : ∀ d ∈ before.result.declarations, d.Stands settings.sources ∧
      after.result.filesRead.contains d.path = true := fun d member =>
    (h d member).imp_right (Changes.contains_filesRead (.single change))
  cases change with
  | declare declaration stands listed =>
      intro d member
      rcases List.mem_append.1 member with member | member
      · exact stays d member
      · rw [List.mem_singleton.1 member]
        exact ⟨stands, listed⟩
  | _ => exact stays

end Unit

/-- All that a unit finds is about the text of its files, and as grave as the settings have it. -/
theorem local_compileUnit (settings : Unit.Settings) (root : Path) :
    ∀ d ∈ (compileUnit settings root).diagnostics,
      d.name.isCrossFile = false ∧ d.severity = d.name.severity settings.redefinedSeverity := by
  obtain ⟨done, changes, result⟩ := Unit.changes_compileUnit settings root
  rw [result]
  exact changes.keeps (Unit.State.Local settings.redefinedSeverity) Unit.Change.local
    fun _ member => absurd member List.not_mem_nil

/-- **No unit finds anything that needs the whole project.** -/
theorem isLocal_compileUnit (settings : Unit.Settings) (root : Path) :
    ∀ d ∈ (compileUnit settings root).diagnostics, d.name.isCrossFile = false :=
  fun d found => (local_compileUnit settings root d found).1

/-- **Every diagnostic of a unit is as grave as the settings have it.** -/
theorem severity_compileUnit (settings : Unit.Settings) (root : Path) :
    ∀ d ∈ (compileUnit settings root).diagnostics,
      d.severity = d.name.severity settings.redefinedSeverity :=
  fun d found => (local_compileUnit settings root d found).2

/-- **All that a unit declares stands in files that it read.** -/
theorem stands_compileUnit (settings : Unit.Settings) (root : Path) :
    ∀ d ∈ (compileUnit settings root).declarations, d.Stands settings.sources ∧
      (compileUnit settings root).filesRead.contains d.path = true := by
  obtain ⟨done, changes, result⟩ := Unit.changes_compileUnit settings root
  rw [result]
  exact changes.keeps (Unit.State.Grounded settings.sources) Unit.Change.grounded
    fun _ member => absurd member List.not_mem_nil

end SvServer

namespace SvServer.Engine

/-! ## Findings -/

/-- The units have found nothing that needs the whole project. -/
def LocalUnits (engine : Engine) : Prop :=
  ∀ root unit, engine.unit? root = some unit →
    ∀ d ∈ unit.diagnostics, d.name.isCrossFile = false

theorem localUnits_empty : LocalUnits empty := by
  intro root unit kept
  rw [unit?, empty, Std.ExtTreeMap.getElem?_empty] at kept
  cases kept

theorem LocalUnits.run {engine : Engine} (h : engine.LocalUnits) (input : PassSetup) :
    (engine.run input).1.LocalUnits := by
  intro root unit kept
  rcases unit?_run_cases kept with before | ⟨spelled, rfl⟩
  · exact h root unit before
  · exact isLocal_compileUnit (settings input) spelled

/-- **After a pass without the checks over the project no file has anything from them.** -/
theorem LocalUnits.isLocal_of_run {engine : Engine} (h : engine.LocalUnits) {input : PassSetup}
    (unchecked : input.crossFile = false) (path : Path) :
    ∀ d ∈ (engine.run input).1.diagnosticsOf path, d.name.isCrossFile = false := by
  intro d member
  rcases mem_diagnosticsOf member with ⟨root, unit, -, kept, found, -⟩ | checked
  · exact h.run input root unit kept d found
  · rw [cross_run, unchecked, if_neg Bool.false_ne_true, Std.ExtTreeMap.getElem?_empty] at checked
    exact absurd checked List.not_mem_nil

/-! ## Declarations -/

/-- What the units have declared stands in files that they read, at tokens of the texts. -/
def Grounded (engine : Engine) (sources : Sources) : Prop :=
  ∀ root unit, engine.unit? root = some unit → ∀ d ∈ unit.declarations,
    d.Stands sources ∧ unit.filesRead.contains d.path = true

theorem grounded_empty (sources : Sources) : Grounded empty sources :=
  fun _ _ kept => absurd kept nofun

/-- Where the text of the file stays, a declaration stands as before. -/
theorem stands_of_text_eq {before after : Sources} {d : Declaration} (h : d.Stands before)
    (same : ∀ text, before.text d.path = some text → after.text d.path = some text) :
    d.Stands after := by
  obtain ⟨text, readable, site⟩ := h.place
  exact ⟨⟨text, same text readable, site⟩, h.word⟩

/-- **A pass that starts from the files with another text leaves all declarations standing.** -/
theorem Grounded.run {engine : Engine} {before : Sources} (h : engine.Grounded before)
    (indexed : engine.Indexed) (ofRoots : engine.UnitsOfRoots) {input : PassSetup}
    (starts : ∀ path text, before.text path = some text → input.sources.text path ≠ some text →
      (engine.startingDirty input).contains path = true) :
    (engine.run input).1.Grounded input.sources := by
  intro root unit kept d member
  have isRoot := ((ofRoots.run input) root unit kept).1
  cases compiled : (engine.run input).2.compiled.contains root with
  | true =>
      obtain ⟨spelled, -, fresh⟩ := unit?_of_compiled compiled
      cases Option.some.inj (fresh.symm.trans kept)
      exact stands_compileUnit (settings input) spelled d member
  | false =>
      rw [unit?_of_not_compiled isRoot compiled] at kept
      obtain ⟨stands, read⟩ := h root unit kept d member
      refine ⟨stands_of_text_eq stands fun text readable => ?_, read⟩
      -- A file with another text that the unit read would have it compiled.
      by_contra changed
      refine absurd compiled (Bool.not_eq_false _ |>.mpr ?_)
      refine compiled_of_read indexed.readers isRoot (starts d.path text readable changed) ?_
      rw [indexed.contains_filesOf, kept, Option.any_some, read]

end SvServer.Engine

namespace SvServer

/-- The second pass is told of every file that has another text than in the first, or none at all,
unless the file leaves with it. -/
def PassSetup.Tells (before after : PassSetup) : Prop :=
  ∀ path text, before.sources.text path = some text → after.sources.text path ≠ some text →
    after.dirty.contains path = true ∨
      before.eligible.contains path = true ∧ after.eligible.contains path = false

namespace Engine

/-- **After passes that are told of all changes**, declarations stand in the texts of the last one. -/
theorem grounded_afterPasses {inputs : List PassSetup} {last : PassSetup}
    (told : (inputs ++ [last]).IsChain PassSetup.Tells) :
    (afterPasses (inputs ++ [last])).Grounded last.sources := by
  have step : ∀ (inputs : List PassSetup) (input : PassSetup),
      afterPasses (inputs ++ [input]) = ((afterPasses inputs).run input).1 :=
    fun inputs input => List.foldl_append
  induction inputs using List.reverseRecOn generalizing last with
  | nil =>
      exact (grounded_empty last.sources).run indexed_empty unitsOfRoots_empty
        fun path text same changed => absurd same changed
  | append_singleton inputs prior ih =>
      obtain ⟨earlier, -, follows⟩ := List.isChain_append.1 told
      have tells : prior.Tells last :=
        follows prior List.getLast?_concat last rfl
      rw [step]
      refine (ih earlier).run (indexed_afterPasses _) (unitsOfRoots_afterPasses _) ?_
      intro path text readable changed
      rw [contains_startingDirty]
      rcases tells path text readable changed with dirty | ⟨was, gone⟩
      · rw [dirty]
        rfl
      · rw [removed, PathSet.contains_diff, step, contains_eligible_run, was, gone]
        simp

/-! ## Places -/

open CrossFile (Settled OneWord samePlace locationOrder)

/-- What the units of the roots declare, in the order of the roots. -/
def declared (engine : Engine) : List Declaration :=
  engine.rootUnits.flatMap UnitReport.declarations

/-- The instances in the units of the roots. -/
def instantiated (engine : Engine) : List Instantiation :=
  engine.rootUnits.flatMap UnitReport.instantiations

/-- Declarations that stand in the texts and begin at the same position of a file stand at the same
place. -/
theorem samePlace_of_stands {sources : Sources} (alike : sources.ReadsAlike) {a b : Declaration}
    (ha : a.Stands sources) (hb : b.Stands sources) (begins : locationOrder a b = .eq) :
    samePlace a b = true := by
  obtain ⟨path, start⟩ := CrossFile.locationOrder_eq_iff.1 begins
  obtain ⟨text, readable, site, listed, place⟩ := ha.place
  obtain ⟨text', readable', site', listed', place'⟩ := hb.place
  cases alike a.path b.path path text text' readable readable'
  rw [place, place'] at start
  refine CrossFile.samePlace_iff.2 ⟨path, ?_⟩
  rw [place, place', Hdl.eq_of_position_start listed listed' start]
  rfl

theorem Grounded.stands {engine : Engine} {sources : Sources} (h : engine.Grounded sources)
    (ofRoots : engine.UnitsOfRoots) : ∀ d ∈ engine.declared, d.Stands sources := by
  intro d member
  obtain ⟨unit, listed, declared⟩ := List.mem_flatMap.1 member
  exact (h unit.root unit (ofRoots.unit?_root listed).2 d declared).1

theorem Grounded.settled {engine : Engine} {sources : Sources} (h : engine.Grounded sources)
    (ofRoots : engine.UnitsOfRoots) (alike : sources.ReadsAlike) : Settled engine.declared :=
  fun a ha b hb => samePlace_of_stands alike (h.stands ofRoots a ha) (h.stands ofRoots b hb)

theorem settled_afterPasses (inputs : List PassSetup) (last : PassSetup)
    (told : (inputs ++ [last]).IsChain PassSetup.Tells) (alike : last.sources.ReadsAlike) :
    Settled (afterPasses (inputs ++ [last])).declared :=
  (grounded_afterPasses told).settled (unitsOfRoots_afterPasses _) alike

theorem Grounded.oneWord {engine : Engine} {sources : Sources} (h : engine.Grounded sources)
    (ofRoots : engine.UnitsOfRoots) : OneWord engine.declared :=
  fun d member => (h.stands ofRoots d member).word

/-! ## Two passes -/

/-- A module that another file may declare again. -/
def besideModule (other : String) : List (String × String) :=
  [("/p/a.sv", "module m;\nendmodule\n"), ("/p/b.sv", other)]

/-- A pass that is told of the one file with another text. -/
theorem tells_besideModule (before after : String) :
    (PassSetup.overDocuments (besideModule before) []).Tells
      (.overDocuments (besideModule after) ["/p/b.sv"]) := by
  intro path text readable changed
  left
  have textOf : ∀ (other : String) dirty,
      (PassSetup.overDocuments (besideModule other) dirty).sources.text path =
        Option.or (if Path.ofString "/p/b.sv" == path then some other
          else if Path.ofString "/p/a.sv" == path then some "module m;\nendmodule\n" else none)
          ((default : Disk).text? path) := by
    intro other dirty
    show Option.or (Documents.text? _ path) _ = _
    rw [besideModule, List.foldl_cons, List.foldl_cons, List.foldl_nil, Documents.text?_openDocument,
      Documents.text?_openDocument]
    rfl
  rw [textOf] at readable changed
  cases here : Path.ofString "/p/b.sv" == path with
  | true =>
      show (PathSet.collect [Path.ofString "/p/b.sv"]).contains path = true
      rw [← PathSet.contains_congr _ here]
      decide +kernel
  | false =>
      rw [here] at readable changed
      exact absurd readable changed

end Engine

end SvServer
