import Mathlib.Data.List.Perm.Subperm
import SvServer.Proofs.Engine.Kept
import SvServer.Proofs.Engine.Results

/-!
# Incremental passes agree with a pass from scratch

An engine is current for a pass when its files, graph and roots are those of the pass, it holds for
every root what compiling that root gives, and its index and its project checks are made of these
units. A pass makes the engine current if it was current for the pass before and is told of
everything that changed in between: units in the batch are compiled, and units that are spared are
what compiling them would give. What an engine reports is determined by what it is current for, so
after any sequence of passes it reports what an engine does that saw nothing but the last input.
-/

namespace SvServer

/-! ## Reports without revisions -/

/-- A report without the revisions of buffers. -/
def UnitReport.content (report : UnitReport) : UnitReport := { report with revisions := ∅ }

theorem UnitReport.Alike.content_eq {a b : UnitReport} (h : a.Alike b) : b.content = a.content := by
  obtain ⟨revisions, rfl⟩ := h
  rfl

theorem UnitReport.Alike.filesRead_eq {a b : UnitReport} (h : a.Alike b) :
    b.filesRead = a.filesRead := by
  obtain ⟨revisions, rfl⟩ := h
  rfl

/-- The checks over the project look at declarations and instantiations only. -/
theorem CrossFile.diagnostics_congr {units units' : List UnitReport}
    (h : units.map UnitReport.content = units'.map UnitReport.content) :
    CrossFile.diagnostics units = CrossFile.diagnostics units' := by
  have declarations : units.flatMap UnitReport.declarations =
      units'.flatMap UnitReport.declarations := by
    have mapped := congrArg (List.flatMap UnitReport.declarations) h
    rwa [List.flatMap_map, List.flatMap_map] at mapped
  have instantiations : units.flatMap UnitReport.instantiations =
      units'.flatMap UnitReport.instantiations := by
    have mapped := congrArg (List.flatMap UnitReport.instantiations) h
    rwa [List.flatMap_map, List.flatMap_map] at mapped
  rw [CrossFile.diagnostics, CrossFile.diagnostics, declarations, instantiations]

namespace Engine

/-- Design elements are told from units without their revisions. -/
theorem declarations_congr {a b : Engine}
    (h : a.rootUnits.map UnitReport.content = b.rootUnits.map UnitReport.content) :
    a.declarations = b.declarations := by
  have mapped := congrArg (List.flatMap UnitReport.declarations) h
  rw [List.flatMap_map, List.flatMap_map] at mapped
  rw [declarations, declarations]
  exact congrArg (fun all => dropRepeats CrossFile.samePlace
    (List.mergeSort all fun a b => (declarationOrder a b).isLE)) mapped

/-- So are the diagnostics of a file, together with those of the checks over the project. -/
theorem diagnosticsOf_congr_units {a b : Engine} {path : Path}
    (units : (a.unitsReading path).map UnitReport.content =
      (b.unitsReading path).map UnitReport.content)
    (cross : a.cross = b.cross) : a.diagnosticsOf path = b.diagnosticsOf path := by
  have found := congrArg (List.flatMap fun unit : UnitReport =>
    unit.diagnostics.filter fun d => d.path == path) units
  rw [List.flatMap_map, List.flatMap_map] at found
  rw [diagnosticsOf_eq, diagnosticsOf_eq, cross]
  exact congrArg (fun found => dropRepeats (· == ·) (Diagnostic.sort (found ++ _))) found

open Include (ReadIndex)

/-! ## Being current -/

/-- The engine holds what a pass with this input should leave, whatever it knew before. -/
structure Current (engine : Engine) (input : PassSetup) : Prop where
  maps : engine.Maps input
  inverse : engine.index.Inverse
  plain : engine.index.PlainRoots
  unit : ∀ root, input.IsRoot root →
    (engine.unit? root).map UnitReport.content = some (compileUnit (settings input) root).content
  reads : ∀ root, input.IsRoot root →
    engine.index.filesOf root = (compileUnit (settings input) root).filesRead
  unread : ∀ root : Path, root.IsPlain → ¬input.IsRoot root → engine.index.filesOf root = ∅
  cross : engine.cross = if input.crossFile then CrossFile.diagnostics engine.rootUnits else ∅

section

variable {excluded : List Path} {severity : Severity} {before after : PassSetup} {engine : Engine}

variable (current : engine.Current before) (prior : before.OverProject excluded severity)
variable (next : after.OverProject excluded severity) (follows : before.Follows after)

include current prior next follows

/-- A root outside of the batch is spared by the pass. -/
theorem spares_of_not_compiled {root : Path} (isRoot : after.IsRoot root)
    (spared : (engine.run after).2.compiled.contains root = false) :
    engine.roots.contains root = true ∧
      (engine.restructure after).engine.Spares (engine.restructure after).dirty before after
        root := by
  rw [compiled_run] at spared
  have maps := maps_restructure current.maps prior next follows
  have plain := next.plain_of_mem isRoot.1
  have kept := (maps.roots root plain).2 isRoot
  have plainDirty := plain_dirty_restructure current.maps prior next maps.plainRoots
  have clean : (engine.restructure after).dirty.contains root = false := by
    by_contra isDirty
    rw [Bool.not_eq_false] at isDirty
    rw [contains_rootsToCompile.2 ⟨root, plainDirty.mem_toList plain isDirty,
      contains_rootsAffectedBy.2 ⟨kept, .inl BEq.rfl⟩⟩] at spared
    exact absurd spared (by decide)
  -- A root that is new would be dirty.
  have old : engine.roots.contains root = true := by
    by_contra new
    rw [Bool.not_eq_true] at new
    rw [dirty_of_gained (.inl next.compiles) kept new] at clean
    exact absurd clean (by decide)
  have was := (current.maps.roots root plain).1 old
  refine ⟨old, ?_⟩
  constructor
  · exact maps
  · exact (grownFrom_restructure current.inverse after).inverse
  · rw [(kept_restructure kept).2, current.reads root was]
  · exact was.1
  · exact kept
  · intro path changed
    exact dirty_of_starting (by rw [contains_startingDirty, changed]; rfl)
  · intro path now new
    apply dirty_of_starting
    rw [contains_startingDirty, next.compiles, contains_added, current.maps.eligible, now, new]
    simp
  · intro path there gone
    apply dirty_of_starting
    rw [contains_startingDirty, next.compiles, contains_removed, current.maps.eligible, there, gone]
    simp
  · exact plainDirty
  · exact spared

theorem plain_compiled : (engine.run after).2.compiled.Plain := by
  have maps := maps_restructure current.maps prior next follows
  rw [compiled_run]
  exact plain_rootsToCompile (plain_dirty_restructure current.maps prior next maps.plainRoots)
    (plainRoots_restructure current.plain after) maps.sources

/-- After the pass a root has the unit that compiling it gives: it was just compiled, or else it was
spared and its unit would be the same. -/
theorem unit?_run_of_isRoot {root : Path} (isRoot : after.IsRoot root) :
    ((engine.run after).1.unit? root).map UnitReport.content =
      some (compileUnit (settings after) root).content := by
  have plain := next.plain_of_mem isRoot.1
  rw [unit?_run, unit?_foldl_compileRoot after (plain_compiled current prior next follows) _ plain,
    Std.ExtTreeSet.contains_toList]
  split
  · rfl
  · rename_i spared
    rw [Bool.not_eq_true] at spared
    obtain ⟨old, spares⟩ := spares_of_not_compiled current prior next follows isRoot spared
    have was := (current.maps.roots root plain).1 old
    rw [(kept_restructure spares.isRoot).1, current.unit root was,
      (spares.compileUnit_alike prior next follows).content_eq]

/-- After the pass the index has of a root what compiling it reads. -/
theorem filesOf_run_of_isRoot {root : Path} (isRoot : after.IsRoot root) :
    (engine.run after).1.index.filesOf root = (compileUnit (settings after) root).filesRead := by
  have plain := next.plain_of_mem isRoot.1
  rw [filesOf_run, filesOf_foldl_compileRoot after (plain_compiled current prior next follows) _
    plain, Std.ExtTreeSet.contains_toList]
  split
  · rfl
  · rename_i spared
    rw [Bool.not_eq_true] at spared
    obtain ⟨-, spares⟩ := spares_of_not_compiled current prior next follows isRoot spared
    rw [spares.reads, (spares.compileUnit_alike prior next follows).filesRead_eq]

/-- After the pass the index has nothing of a file that is no root: it was not compiled, and if it
was a root before it was dropped. -/
theorem filesOf_run_of_not_isRoot {root : Path} (plain : root.IsPlain)
    (notRoot : ¬after.IsRoot root) : (engine.run after).1.index.filesOf root = ∅ := by
  have maps := maps_restructure current.maps prior next follows
  have gone : (engine.restructure after).engine.roots.contains root = false := by
    by_contra kept
    rw [Bool.not_eq_false] at kept
    exact notRoot ((maps.roots root plain).1 kept)
  have notCompiled : (engine.run after).2.compiled.contains root = false := by
    by_contra compiled
    rw [Bool.not_eq_false] at compiled
    have isRoot := isRoot_of_compiled compiled
    rw [roots_run, gone] at isRoot
    exact absurd isRoot (by decide)
  rw [filesOf_run, filesOf_foldl_compileRoot_of_absent after
    (by rw [Std.ExtTreeSet.contains_toList, notCompiled])]
  by_cases old : engine.roots.contains root = true
  · exact filesOf_restructure_of_lost old gone
  · apply filesOf_restructure_of_empty
    exact current.unread root plain fun was => old ((current.maps.roots root plain).2 was)

/-- **A pass makes the engine current.** -/
theorem current_run : (engine.run after).1.Current after where
  maps := by
    rw [run_fst, recompiled_eq]
    exact ((maps_restructure current.maps prior next follows).foldl_compileRoot _).crossCheck after
  inverse := (grownFrom_run current.inverse after).inverse
  plain := by
    have plainBatch := plain_compiled current prior next follows
    rw [compiled_run] at plainBatch
    rw [run_fst, index_crossCheck, recompiled_eq]
    exact plainRoots_foldl_compileRoot after plainBatch (plainRoots_restructure current.plain after)
  unit _ isRoot := unit?_run_of_isRoot current prior next follows isRoot
  reads _ isRoot := filesOf_run_of_isRoot current prior next follows isRoot
  unread _ plain notRoot := filesOf_run_of_not_isRoot current prior next follows plain notRoot
  cross := cross_run engine after

end

/-! ## What an engine is current for determines what it reports -/

section

variable {input : PassSetup} {a b : Engine}

/-- The contents of the units of a list of roots. -/
theorem map_content_filterMap (current : a.Current input) {roots : List Path}
    (isRoot : ∀ root ∈ roots, input.IsRoot root) :
    (roots.filterMap a.unit?).map UnitReport.content =
      roots.map fun root => (compileUnit (settings input) root).content := by
  induction roots with
  | nil => rfl
  | cons first rest ih =>
      -- Every root has a unit, so none is left out of the list.
      have unit := current.unit first (isRoot first List.mem_cons_self)
      have others := ih fun root member => isRoot root (List.mem_cons_of_mem _ member)
      cases held : a.unit? first with
      | none =>
          rw [held] at unit
          exact absurd unit nofun
      | some report =>
          rw [held] at unit
          rw [List.filterMap_cons_some held, List.map_cons, List.map_cons, others,
            Option.some.inj unit]

/-- A root among the readers of a file is a root of the pass. -/
theorem isRoot_of_reads (current : a.Current input) {path root : Path} (plain : root.IsPlain)
    (reads : (a.index.readersOf path).contains root = true) : input.IsRoot root := by
  by_contra notRoot
  rw [current.inverse path root, current.unread root plain notRoot] at reads
  rw [Std.ExtTreeSet.contains_empty] at reads
  exact absurd reads (by decide)

variable (first : a.Current input) (second : b.Current input)

include first second

theorem roots_eq : a.roots = b.roots := by
  apply first.maps.plainRoots.ext second.maps.plainRoots
  intro path plain
  rw [Bool.eq_iff_iff, first.maps.roots path plain, second.maps.roots path plain]

theorem rootUnits_eq : a.rootUnits.map UnitReport.content =
    b.rootUnits.map UnitReport.content := by
  have isRoot : ∀ root ∈ a.roots.toList, input.IsRoot root := fun root member =>
    (first.maps.roots root (first.maps.plainRoots root member)).1
      (PathSet.contains_of_mem_toList member)
  rw [rootUnits, rootUnits, ← roots_eq first second, map_content_filterMap first isRoot,
    map_content_filterMap second isRoot]

theorem declarations_eq : a.declarations = b.declarations :=
  declarations_congr (rootUnits_eq first second)

theorem readersOf_eq (path : Path) : a.index.readersOf path = b.index.readersOf path := by
  apply (first.plain.readersOf path).ext (second.plain.readersOf path)
  intro root plain
  rw [first.inverse path root, second.inverse path root]
  by_cases isRoot : input.IsRoot root
  · rw [first.reads root isRoot, second.reads root isRoot]
  · rw [first.unread root plain isRoot, second.unread root plain isRoot]

/-- **Engines that are current for the same pass report the same about every file.** -/
theorem diagnosticsOf_eq_of_current (path : Path) :
    a.diagnosticsOf path = b.diagnosticsOf path := by
  have isRoot : ∀ root ∈ (a.index.readersOf path).toList, input.IsRoot root := fun root member =>
    isRoot_of_reads first (first.plain.readersOf path root member)
      (PathSet.contains_of_mem_toList member)
  have units : (a.unitsReading path).map UnitReport.content =
      (b.unitsReading path).map UnitReport.content := by
    rw [unitsReading, unitsReading, ← readersOf_eq first second, map_content_filterMap first isRoot,
      map_content_filterMap second isRoot]
  apply diagnosticsOf_congr_units units
  rw [first.cross, second.cross, CrossFile.diagnostics_congr (rootUnits_eq first second)]

end

/-! ## From nothing -/

/-- The input of a pass over no files. -/
def PassSetup.blank (input : PassSetup) (documents : Documents) (disk : Disk)
    (excluded : List Path) : PassSetup :=
  { input with
    eligible := ∅
    sources := .ofProject ∅ documents disk excluded
    dirty := ∅
    crossFile := false }

section

variable {excluded : List Path} {severity : Severity} {input : PassSetup}

theorem overProject_blank (project : input.OverProject excluded severity) (documents : Documents)
    (disk : Disk) :
    (PassSetup.blank input documents disk excluded).OverProject excluded severity := by
  constructor
  · exact ⟨documents, disk, rfl⟩
  · exact project.severity
  · exact project.compiles
  · exact .empty
  · exact .empty
  · exact nofun
  · exact nofun
  · -- Without files nothing is included, so a chain has one file at most.
    intro chain _ linked
    cases chain with
    | nil => exact Nat.zero_le _
    | cons first rest =>
        cases rest with
        | nil => exact Nat.le_of_ble_eq_true rfl
        | cons second more => exact absurd (List.isChain_cons_cons.1 linked).1.1 List.not_mem_nil

theorem follows_blank (input : PassSetup) (documents : Documents) (disk : Disk) :
    (PassSetup.blank input documents disk excluded).Follows input where
  texts _ member := absurd member List.not_mem_nil
  macros changed := absurd rfl changed

theorem not_isRoot_blank (input : PassSetup) (documents : Documents) (disk : Disk) (path : Path) :
    ¬(PassSetup.blank input documents disk excluded).IsRoot path :=
  fun isRoot => absurd isRoot.1 List.not_mem_nil

/-- What an engine that has seen nothing knows of files is right for no files. -/
theorem maps_empty (input : PassSetup) (documents : Documents) (disk : Disk) :
    empty.Maps (PassSetup.blank input documents disk excluded) where
  eligible := rfl
  names path _ := by
    rw [show (PassSetup.blank input documents disk excluded).eligible.contains path = false from
      Std.ExtTreeSet.contains_empty]
    exact Std.ExtTreeMap.getElem?_empty
  keys := .empty
  sources target edge member := by
    rw [show empty.graph.incoming target = [] from Include.Graph.incoming_empty target] at member
    exact absurd member List.not_mem_nil
  graph source target _ := by
    constructor
    · rintro ⟨edge, member, -⟩
      rw [show empty.graph.incoming target = [] from Include.Graph.incoming_empty target] at member
      exact absurd member List.not_mem_nil
    · exact fun included => absurd included.1 List.not_mem_nil
  plainRoots := .empty
  roots path _ := by
    constructor
    · intro member
      rw [show empty.roots.contains path = false from Std.ExtTreeSet.contains_empty] at member
      exact absurd member (by decide)
    · exact fun isRoot => absurd isRoot (not_isRoot_blank input documents disk path)

/-- An engine that has seen nothing is current for no files. -/
theorem current_empty (input : PassSetup) (documents : Documents) (disk : Disk) :
    empty.Current (PassSetup.blank input documents disk excluded) where
  maps := maps_empty input documents disk
  inverse := ReadIndex.Inverse.empty
  plain := ReadIndex.PlainRoots.empty
  unit root isRoot := absurd isRoot (not_isRoot_blank input documents disk root)
  reads root isRoot := absurd isRoot (not_isRoot_blank input documents disk root)
  unread _ _ _ := rfl
  cross := rfl

/-- A first pass makes the engine current. -/
theorem current_run_empty (project : input.OverProject excluded severity) :
    (empty.run input).1.Current input := by
  obtain ⟨documents, disk, -⟩ := project.provided
  exact current_run (current_empty input documents disk)
    (overProject_blank project documents disk) project (follows_blank input documents disk)

/-- **Every further pass keeps the engine current**, by induction on the passes. -/
theorem current_foldl {engine : Engine} {prior last : PassSetup} {inputs : List PassSetup}
    (current : engine.Current prior)
    (project : ∀ input ∈ prior :: inputs, input.OverProject excluded severity)
    (told : (prior :: inputs).IsChain PassSetup.Follows)
    (final : (prior :: inputs).getLast? = some last) :
    (inputs.foldl (fun engine input => (engine.run input).1) engine).Current last := by
  induction inputs generalizing engine prior with
  | nil =>
      obtain rfl : prior = last := Option.some.inj final
      exact current
  | cons next rest ih =>
      rw [List.isChain_cons_cons] at told
      rw [List.getLast?_cons_cons] at final
      have nextProject := project next (List.mem_cons_of_mem _ List.mem_cons_self)
      exact ih (current_run current (project prior List.mem_cons_self) nextProject told.1)
        (fun input member => project input (List.mem_cons_of_mem _ member)) told.2 final

/-- The engine after a sequence of passes over a project is current for the last one. -/
theorem current_afterPasses {last : PassSetup} {inputs : List PassSetup}
    (project : ∀ input ∈ inputs, input.OverProject excluded severity)
    (told : inputs.IsChain PassSetup.Follows) (final : inputs.getLast? = some last) :
    (afterPasses inputs).Current last := by
  cases inputs with
  | nil => exact absurd final nofun
  | cons first rest =>
      have begun := current_run_empty (project first List.mem_cons_self)
      rw [afterPasses, List.foldl_cons]
      exact current_foldl begun project told final

end

/-! ## Agreement -/

/-- An engine that saw nothing but one input, with all its files changed. -/
def fromScratch (input : PassSetup) : Engine := (empty.run { input with dirty := input.eligible }).1

theorem current_fromScratch {excluded : List Path} {severity : Severity} {input : PassSetup}
    (project : input.OverProject excluded severity) : (fromScratch input).Current input := by
  have whole : ({ input with dirty := input.eligible } : PassSetup).OverProject excluded severity :=
    ⟨project.provided, project.severity, project.compiles, project.plainEligible,
      project.plainEligible, project.readable, project.quoted, project.shallow⟩
  obtain ⟨maps, inverse, plain, unit, reads, unread, cross⟩ := current_run_empty whole
  obtain ⟨eligible, names, keys, sources, graph, plainRoots, roots⟩ := maps
  exact ⟨⟨eligible, names, keys, sources, graph, plainRoots, roots⟩, inverse, plain, unit, reads,
    unread, cross⟩

/-- **Incremental passes agree with a pass from scratch.** After any sequence of passes over a
project, each of which is told of all that changed since the one before, the engine has the roots,
the declarations and the diagnostics that an engine has which saw nothing but the last input. -/
theorem afterPasses_agrees_fromScratch (excluded : List Path) (severity : Severity)
    (inputs : List PassSetup) (last : PassSetup)
    (project : ∀ input ∈ inputs ++ [last], input.OverProject excluded severity)
    (told : (inputs ++ [last]).IsChain PassSetup.Follows) :
    (afterPasses (inputs ++ [last])).roots = (fromScratch last).roots ∧
      (afterPasses (inputs ++ [last])).declarations = (fromScratch last).declarations ∧
      ∀ path, (afterPasses (inputs ++ [last])).diagnosticsOf path =
        (fromScratch last).diagnosticsOf path := by
  have lastProject := project last (List.mem_append_right _ List.mem_cons_self)
  have incremental := current_afterPasses project told List.getLast?_concat
  have scratch := current_fromScratch lastProject
  exact ⟨roots_eq incremental scratch, declarations_eq incremental scratch,
    diagnosticsOf_eq_of_current incremental scratch⟩

/-! ## A project of two files -/

/-- All files of a chain of includes but the first are included by another one. -/
theorem eligible_of_isChain {input : PassSetup} {first : Path} {rest : List Path}
    (linked : (first :: rest).IsChain input.Includes) :
    ∀ path ∈ rest, path ∈ input.eligible.toList := by
  induction rest generalizing first with
  | nil => exact nofun
  | cons second more ih =>
      intro path member
      rw [List.isChain_cons_cons] at linked
      rcases List.mem_cons.1 member with rfl | member
      · exact linked.1.2.1
      · exact ih linked.2 path member

/-- A project of few files has no long chains of includes. -/
theorem shallow_of_few_files {input : PassSetup}
    (few : input.eligible.toList.length ≤ Unit.openFileLimit) (chain : List Path)
    (distinct : chain.Nodup) (linked : chain.IsChain input.Includes) :
    chain.length ≤ Unit.openFileLimit := by
  cases chain with
  | nil => exact Nat.zero_le _
  | cons first rest =>
      cases rest with
      | nil => exact Nat.le_of_ble_eq_true rfl
      | cons second more =>
          have all : ∀ path ∈ first :: second :: more, path ∈ input.eligible.toList := by
            intro path member
            rcases List.mem_cons.1 member with rfl | member
            · exact (List.isChain_cons_cons.1 linked).1.1
            · exact eligible_of_isChain linked path member
          exact (List.Nodup.subperm distinct all).length_le.trans few

/-- A pass over a source file that includes a header, both open in the editor. -/
def passOverHeader (header : String) (dirty : List Path) : PassSetup :=
  let source := Path.ofString "/p/top.sv"
  let included := Path.ofString "/p/defs.svh"
  let eligible := PathSet.collect [source, included]
  let documents := (Documents.empty.openDocument source "`include \"defs.svh\"" 1).openDocument
    included header 1
  { eligible := eligible
    sources := .ofProject eligible documents default []
    macros := ⟨[]⟩
    redefinedSeverity := .warning
    dirty := .collect dirty
    compileAdded := true
    crossFile := true }

/-- The two passes are over a project: the header is empty at first, and then uses a macro. -/
theorem overProject_passOverHeader {header : String} {dirty : List Path}
    (h : header = "" ∧ dirty = [] ∨
      header = "`DEPTH" ∧ dirty = [Path.ofString "/p/defs.svh"]) :
    (passOverHeader header dirty).OverProject [] .warning := by
  rcases h with ⟨rfl, rfl⟩ | ⟨rfl, rfl⟩
  all_goals
    constructor
    · exact ⟨_, _, rfl⟩
    · rfl
    · rfl
    · unfold PathSet.Plain
      decide +kernel
    · unfold PathSet.Plain
      decide +kernel
    · decide +kernel
    · decide +kernel
    · exact shallow_of_few_files (by decide +kernel)

/-- The second pass is told of the header only, and agrees with a pass over everything. -/
theorem agrees_after_header_edit :
    let first := passOverHeader "" []
    let second := passOverHeader "`DEPTH" [.ofString "/p/defs.svh"]
    (∀ input ∈ [first] ++ [second], input.OverProject [] .warning) ∧
      ([first] ++ [second]).IsChain PassSetup.Follows ∧
      (afterPasses [first, second]).roots = (fromScratch second).roots ∧
      (afterPasses [first, second]).declarations = (fromScratch second).declarations ∧
      ∀ path, (afterPasses [first, second]).diagnosticsOf path =
        (fromScratch second).diagnosticsOf path := by
  intro first second
  have project : ∀ input ∈ [first] ++ [second], input.OverProject [] .warning := by
    intro input member
    rcases List.mem_cons.1 member with rfl | member
    · exact overProject_passOverHeader (.inl ⟨rfl, rfl⟩)
    · rw [List.mem_singleton.1 member]
      exact overProject_passOverHeader (.inr ⟨rfl, rfl⟩)
  have texts : ∀ path ∈ first.eligible.toList,
      second.sources.text path ≠ first.sources.text path →
        second.dirty.contains path = true := by decide +kernel
  have told : ([first] ++ [second]).IsChain PassSetup.Follows :=
    List.isChain_pair.2 ⟨fun path member _ changed => texts path member changed,
      fun changed => absurd rfl changed⟩
  exact ⟨project, told, afterPasses_agrees_fromScratch [] .warning [first] second project told⟩

end Engine

end SvServer
