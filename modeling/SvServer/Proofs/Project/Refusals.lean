import SvServer.Proofs.Project.Alike
import SvServer.Proofs.Project.FollowUps

/-!
# What is left of a refused operation

An operation that refuses its path writes nothing. If it was refused before the settings were read,
nothing at all has changed. Otherwise the project has taken in what the settings say by then. So it
is the same project as before exactly where the settings on the disk are those that it held.
-/

namespace SvServer

/-- Whether an operation was refused for the path that it was given. -/
def ProjectError.refusesPath : ProjectError → Bool
  | .fileSystem _ | .malformedSettings _ => false
  | .notFound _ | .outsideRoot _ _ | .withinRoot _ | .parentOfRoot _ | .notADirectory _
  | .principalRoot _ | .notARoot _ => true

/-- Whether an operation was refused because the path leads nowhere. -/
def ProjectError.isNotFound : ProjectError → Bool
  | .notFound _ => true
  | _ => false

/-! ## The files of one root -/

namespace RootFiles

variable {set : RootFiles} {disk : Disk} {path : Path} {error : ProjectError}

/-- **A root that refuses to exclude a path stays as it is.** -/
theorem excludePath_fst_of_refused (refused : (set.excludePath disk path).2 = .error error) :
    (set.excludePath disk path).1 = set := by
  rcases excludePath_cases set disk path with ⟨_, same⟩ | ⟨-, already⟩ | ⟨-, excluded, walked⟩
  · rw [same]
  · rw [already]
  · rw [walked] at refused
    cases refused

/-- A root that refuses to include a path stays as it is, unless a folder on the way could not be
listed. -/
theorem includePath_fst_of_refused (refused : (set.includePath disk path).2 = .error error)
    (forPath : error.refusesPath = true) : (set.includePath disk path).1 = set := by
  rw [includePath] at refused ⊢
  cases known : set.validPath disk path with
  | error other => rfl
  | ok valid =>
      rw [known] at refused
      dsimp only at refused
      split at refused
      · cases refused
      · split at refused
        · rw [← Except.error.inj refused] at forPath
          exact absurd forPath Bool.false_ne_true
        · cases refused

end RootFiles

namespace Project

variable {project before after : Project} {disk : Disk} {settings : ProjectSettings}

/-! ## Projects that did not change -/

/-- Where nothing moved there is nothing to take in. -/
theorem takeIn_empty (project : Project) : (project.takeIn .empty).1 = project := by
  have none : ∀ set : PathSet, set.join ∅ = set := fun _ => rfl
  simp [takeIn, FileChanges.empty, none]

/-! ## Settings that a project holds already -/

theorem contains_imports_apply (project : Project) (disk : Disk) (settings : ProjectSettings)
    (root : Path) : (project.apply disk settings).project.imports.contains root =
      (project.importRoots disk settings.imports).1.imports.contains root := by
  rw [contains_imports, exclusionsAt, files?_apply, Option.isSome_map, Option.isSome_map, files?,
    Std.ExtTreeMap.contains_eq_isSome_getElem?]

/-- What is imported once settings were applied, they list. -/
theorem listed_of_contains_apply (h : project.Rooted) {root : Path}
    (member : (project.apply disk settings).project.imports.contains root = true) :
    (wantedImports disk settings.imports).contains root = true := by
  rw [contains_imports_apply, contains_importRoots h] at member
  rcases member with ⟨-, listed⟩ | ⟨pick, listed, same, -⟩
  · exact listed
  · rw [← PathSet.contains_congr _ same]
    exact PathSet.contains_of_mem_toList listed

/-- Settings that leave the imports there are leave their files. -/
theorem files?_importRoots_of_sameSettings (h : project.Rooted)
    (same : project.SameSettings (project.apply disk settings).project) (place : Option Path) :
    (project.importRoots disk settings.imports).1.files? place = project.files? place := by
  cases place with
  | none => exact congrArg some (principal_importRoots project disk settings.imports)
  | some root =>
      have imported := same.imports root
      cases found : project.imports[root]? with
      | some set =>
          rw [Std.ExtTreeMap.contains_eq_isSome_getElem?, found] at imported
          have listed := listed_of_contains_apply h imported.symm
          rw [files?, files?, found, importRoots_of_kept listed found]
      | none =>
          rw [contains_imports_apply, Std.ExtTreeMap.contains_eq_isSome_getElem?, found,
            Std.ExtTreeMap.contains_eq_isSome_getElem?] at imported
          rw [files?, files?, found, ← Option.not_isSome_iff_eq_none, ← imported]
          exact Bool.false_ne_true

theorem delta_apply_of_sameSettings (h : project.Rooted)
    (same : project.SameSettings (project.apply disk settings).project) :
    (project.apply disk settings).delta = .empty := by
  have stays : ∀ root ∈ project.imports.keys,
      ¬(!(wantedImports disk settings.imports).contains root) = true := by
    intro root listed
    have member : project.imports.contains root = true := by
      rw [← Std.ExtTreeMap.contains_keys]
      exact List.contains_iff_exists_mem_beq.2 ⟨root, listed, BEq.rfl⟩
    rw [listed_of_contains_apply h ((same.imports root).symm.trans member)]
    decide
  show (project.dropUnwanted disk settings.imports).2 = _
  rw [dropUnwanted, List.filter_eq_nil_iff.2 stays]
  rfl

theorem waiting_apply (project : Project) (disk : Disk) (settings : ProjectSettings) :
    (project.apply disk settings).project.waiting = project.waiting :=
  importRoots_induction (fun between => between.waiting = project.waiting) project disk
    settings.imports rfl
    (fun between root _ known => by rw [waiting_dropImport, known])
    fun between root _ known => by rw [waiting_addImport, known]

/-- **Settings that a project holds already leave all of it as it is.** -/
theorem same_marked (h : project.Rooted) (names : project.macros.names.Nodup)
    (same : project.SameSettings (project.apply disk settings).project) :
    project.Same (project.marked disk settings) := by
  have unchanged : (project.apply disk settings).settingsChanged = false := by
    show (!project.macros.agreesWith (project.apply disk settings).project.macros ||
      project.hiddenNames != (project.apply disk settings).project.hiddenNames) = false
    rw [← same.macros, ← same.hiddenNames, MacroTable.agreesWith_self names]
    simp
  rw [marked, unchanged, if_neg Bool.false_ne_true]
  refine ⟨same, fun place => ?_, fun file => by rw [waiting_apply], ?_⟩
  · rw [trackedAt, trackedAt, files?_apply, files?_importRoots_of_sameSettings h same,
      Option.map_map]
    rfl
  · rw [limitWarned_apply]

/-- Whether the settings on the disk, where they can be read, are those that the project holds. -/
def HoldsSettings (project : Project) (disk : Disk) : Prop :=
  ∀ stored, ProjectSettings.read disk project.root = .ok (some stored) →
    project.SameSettings (project.apply disk stored).project

/-- The project once the settings were read again and all that this changed was taken in. -/
def takenIn (project : Project) (disk : Disk) : Project :=
  ((project.refresh disk).project.takeIn (project.refresh disk).delta).1

/-- **Reading the settings again changes nothing** exactly where the project holds them already. -/
theorem same_takenIn_iff (h : project.Reachable) :
    project.Same (project.takenIn disk) ↔ project.HoldsSettings disk := by
  constructor
  · intro same stored read
    have fresh := same.toSameSettings.trans (sameSettings_takeIn _ _).symm
    exact fresh.trans (sameSettings_refresh read).symm
  · intro holds
    rw [takenIn]
    rcases refresh_cases project disk with
      ⟨-, nothing⟩ | ⟨stored, read, ⟨-, kept⟩ | ⟨moved, -⟩⟩
    · rw [nothing, takeIn_empty]
      exact .refl project
    · rw [kept, delta_apply_of_sameSettings h.consistent.toRooted (holds stored read),
        takeIn_empty]
      exact same_marked h.consistent.toRooted h.nodup_names (holds stored read)
    · rw [scope_marked] at moved
      have still := (holds stored read).symm.scope_beq
      exact absurd (moved.symm.trans still) Bool.false_ne_true

/-! ## Refused operations -/

/-- What an operation that may be refused comes to. -/
def changed? (project : Project) (disk : Disk) : Operation → Option Changed
  | .excludePath path => some (project.excludePath disk path)
  | .includePath path => some (project.includePath disk path)
  | .addRoot path => some (project.addRoot disk path)
  | .removeRoot path => some (project.removeRoot disk path)
  | .setMacros _ | .reload | .discover _ => none

/-- What a refused operation leaves: the project and the disk as they are, or the project once the
settings were taken in. -/
structure Leaves (project : Project) (disk : Disk) (operation : Operation) (changed : Changed) :
    Prop where
  unwritten : changed.disk = disk
  unread : project.reads disk operation = false → changed.project = project
  read : project.reads disk operation = true → (project.takenIn disk).Same changed.project

/-- A root that refuses leaves the project with the settings taken in. -/
theorem leaves_changeFiles {operation : Operation} {path : Path} {error : ProjectError}
    {change : RootFiles → RootFiles × Except ProjectError FileChanges}
    (reads : project.reads disk operation = true)
    (stays : ∀ set : RootFiles, (change set).2 = .error error → (change set).1 = set)
    (refused : (project.changeFiles disk path change).followUp = .error error) :
    project.Leaves disk operation (project.changeFiles disk path change) := by
  have kept := stays ((project.refresh disk).project.filesFor path)
  rw [changeFiles] at refused ⊢
  generalize change ((project.refresh disk).project.filesFor path) = outcome at kept refused
  obtain ⟨set, result⟩ := outcome
  cases result with
  | ok delta => cases refused
  | error other =>
      obtain rfl : other = error := Except.error.inj refused
      obtain rfl := kept rfl
      refine ⟨rfl, fun unread => absurd (unread.symm.trans reads) Bool.false_ne_true, fun _ => ?_⟩
      -- The files that refused are put back where they were.
      have files : ∀ place, ((project.refresh disk).project.putFilesFor path
          ((project.refresh disk).project.filesFor path)).files? place =
            (project.refresh disk).project.files? place := by
        intro place
        rw [files?_putFilesFor]
        split
        · rename_i here
          rw [← files?_congr _ here, files?_importAbove?]
        · rfl
      have beside := beside_putFilesFor (project.refresh disk).project path
        ((project.refresh disk).project.filesFor path)
      have waiting := waiting_putFilesFor (project.refresh disk).project path
        ((project.refresh disk).project.filesFor path)
      exact (same_of_files? files beside waiting).takeIn (project.refresh disk).delta

/-- **What a refused operation leaves.** -/
theorem leaves_of_refused {operation : Operation} {changed : Changed} {error : ProjectError}
    (does : project.changed? disk operation = some changed)
    (refused : changed.followUp = .error error) (forPath : error.refusesPath = true) :
    project.Leaves disk operation changed := by
  have unread : ∀ {reason : ProjectError}, project.reads disk operation = false →
      changed = ⟨project, disk, .error reason⟩ → project.Leaves disk operation changed := by
    rintro reason unread rfl
    exact ⟨rfl, fun _ => rfl, fun reads => absurd (unread.symm.trans reads) Bool.false_ne_true⟩
  cases operation with
  | excludePath path =>
      obtain rfl := Option.some.inj does
      exact leaves_changeFiles rfl (fun _ => RootFiles.excludePath_fst_of_refused) refused
  | includePath path =>
      obtain rfl := Option.some.inj does
      exact leaves_changeFiles rfl
        (fun _ refused => RootFiles.includePath_fst_of_refused refused forPath) refused
  | addRoot path =>
      obtain rfl := Option.some.inj does
      rcases addRoot_cases project disk path with ⟨early, _, same⟩ | ⟨-, _, -, accepted⟩
      · exact unread early same
      · rw [accepted] at refused
        cases refused
  | removeRoot path =>
      obtain rfl := Option.some.inj does
      rcases removeRoot_cases project disk path with
        ⟨early, _, same⟩ | ⟨reads, ⟨_, same⟩ | accepted⟩
      · exact unread early same
      · rw [same]
        exact ⟨rfl, fun early => absurd (early.symm.trans reads) Bool.false_ne_true,
          fun _ => .refl _⟩
      · rw [accepted] at refused
        cases refused
  | setMacros macros => cases does
  | reload => cases does
  | discover limits => cases does

/-- **What a refusal changes**: never the disk; and nothing of the project either, exactly if it
comes before the settings are read, or if the project held what they say. -/
theorem same_of_refused_iff (h : project.Reachable) {operation : Operation} {changed : Changed}
    {error : ProjectError} (does : project.changed? disk operation = some changed)
    (refused : changed.followUp = .error error) (forPath : error.refusesPath = true) :
    changed.disk = disk ∧ (project.Same changed.project ↔
      (project.reads disk operation = true → project.HoldsSettings disk)) := by
  have leaves := leaves_of_refused does refused forPath
  refine ⟨leaves.unwritten, ?_⟩
  cases reads : project.reads disk operation with
  | false =>
      rw [leaves.unread reads]
      exact iff_of_true (.refl project) fun early => absurd early Bool.false_ne_true
  | true =>
      have after := leaves.read reads
      rw [← same_takenIn_iff h]
      exact ⟨fun same _ => same.trans after.symm, fun taken => (taken rfl).trans after⟩

/-- What excluding a path that does not exist comes to, after another tool has excluded a file. -/
def refusedExclusion : Changed := pairProject.excludePath editedDisk (.ofString "/p/none.sv")

theorem notFound_refusedExclusion :
    ∃ path, refusedExclusion.followUp = .error (.notFound path) := by
  have refused : (refusedExclusion.followUp.mapError ProjectError.isNotFound).map (fun _ => ()) =
      .error true := by
    decide +kernel
  cases outcome : refusedExclusion.followUp with
  | ok followUp => rw [outcome] at refused; cases refused
  | error error =>
      rw [outcome] at refused
      cases error with
      | notFound path => exact ⟨path, rfl⟩
      | _ => cases refused

/-- When the refused exclusion leaves the project as it was. -/
theorem same_refusedExclusion_iff : pairProject.Reachable ∧
    refusedExclusion.disk = editedDisk ∧
    (pairProject.Same refusedExclusion.project ↔
      (pairProject.reads editedDisk (.excludePath (.ofString "/p/none.sv")) = true →
        pairProject.HoldsSettings editedDisk)) := by
  obtain ⟨path, refused⟩ := notFound_refusedExclusion
  have does : pairProject.changed? editedDisk (.excludePath (.ofString "/p/none.sv")) =
      some refusedExclusion := rfl
  exact ⟨reachable_pairProject, same_of_refused_iff reachable_pairProject does refused rfl⟩

/-- **The exclusion is refused, and the project has another one after it**: the one that the other
tool has written. -/
theorem not_same_refusedExclusion : pairProject.Reachable ∧
    (∃ path, refusedExclusion.followUp = .error (.notFound path)) ∧
    ¬pairProject.Same refusedExclusion.project := by
  have before : pairProject.principal.excluded.contains (.ofString "/p/side.sv") = false := by
    decide +kernel
  have after : refusedExclusion.project.principal.excluded.contains (.ofString "/p/side.sv") =
      true := by
    decide +kernel
  refine ⟨reachable_pairProject, notFound_refusedExclusion, fun same => ?_⟩
  have found : pairProject.files? none = some pairProject.principal := rfl
  have kept := same.excluded found rfl (.ofString "/p/side.sv")
  rw [before, after] at kept
  exact Bool.false_ne_true kept

end Project

end SvServer
