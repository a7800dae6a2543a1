import SvServer.Proofs.Project.Altering
import SvServer.Proofs.Project.Refreshing

/-!
# Projects that are alike

Two projects hold the same settings when they have the same roots with the same exclusions, the same
macros in the same order, and hide the same names. They are the same project if the same files are
tracked and wait as well. How paths are spelled in their sets and tables does not count.
-/

namespace SvServer

namespace Project

variable {a b c project : Project} {disk : Disk} {settings : ProjectSettings}

/-! ## Settings -/

/-- The exclusions of the root at a place, as a test on paths; none if no root stands there. -/
def exclusionsAt (project : Project) (place : Option Path) : Option (Path → Bool) :=
  (project.files? place).map fun set path => set.excluded.contains path

/-- Whether two projects hold the same settings: the same roots, each with the same exclusions, the
same macros in the same order, and the same hidden names. -/
structure SameSettings (a b : Project) : Prop where
  root : (a.root == b.root) = true
  exclusions : ∀ place, a.exclusionsAt place = b.exclusionsAt place
  macros : a.macros = b.macros
  hiddenNames : a.hiddenNames = b.hiddenNames

theorem SameSettings.symm (h : a.SameSettings b) : b.SameSettings a :=
  ⟨BEq.symm h.root, fun place => (h.exclusions place).symm, h.macros.symm, h.hiddenNames.symm⟩

theorem SameSettings.trans (h : a.SameSettings b) (h' : b.SameSettings c) : a.SameSettings c :=
  ⟨BEq.trans h.root h'.root, fun place => (h.exclusions place).trans (h'.exclusions place),
    h.macros.trans h'.macros, h.hiddenNames.trans h'.hiddenNames⟩

/-- A root is imported if some root stands at its place. -/
theorem contains_imports (project : Project) (root : Path) :
    project.imports.contains root = (project.exclusionsAt (some root)).isSome := by
  rw [exclusionsAt, Option.isSome_map, files?, Std.ExtTreeMap.contains_eq_isSome_getElem?]

/-- Projects with the same settings have the same imports. -/
theorem SameSettings.imports (h : a.SameSettings b) (root : Path) :
    a.imports.contains root = b.imports.contains root := by
  rw [contains_imports, contains_imports, h.exclusions]

theorem SameSettings.excluded (h : a.SameSettings b) {place : Option Path} {set other : RootFiles}
    (found : a.files? place = some set) (found' : b.files? place = some other) (path : Path) :
    set.excluded.contains path = other.excluded.contains path := by
  have same := h.exclusions place
  rw [exclusionsAt, exclusionsAt, found, found'] at same
  exact congrFun (Option.some.inj same) path

/-- **Projects with the same settings have the same scope.** -/
theorem SameSettings.scope_beq (h : a.SameSettings b) : (a.scope == b.scope) = true := by
  have keys : (a.imports.keys == b.imports.keys) = true := by
    refine beq_iff_map_components.2 (map_components_eq Std.ExtTreeMap.ordered_keys
      Std.ExtTreeMap.ordered_keys fun path => ?_)
    rw [Std.ExtTreeMap.contains_keys, Std.ExtTreeMap.contains_keys, h.imports]
  have row : ∀ place set other, a.files? place = some set → b.files? place = some other →
      exclusionRow set = exclusionRow other := by
    intro place set other found found'
    refine map_components_eq Std.ExtTreeSet.ordered_toList Std.ExtTreeSet.ordered_toList
      fun path => ?_
    rw [Std.ExtTreeSet.contains_toList, Std.ExtTreeSet.contains_toList,
      h.excluded found found' path]
  have rows : a.rootFiles.map exclusionRow = b.rootFiles.map exclusionRow := by
    rw [rootFiles, rootFiles, List.map_cons, List.map_cons, row none _ _ rfl rfl,
      PathMap.values_eq_map_toList, PathMap.values_eq_map_toList, List.map_map, List.map_map]
    congr 1
    -- Import by import, at the same position of both tables.
    refine List.ext_getElem (by simp [length_imports_eq keys]) fun i here there => ?_
    rw [List.length_map] at here there
    rw [List.getElem_map, List.getElem_map]
    have same := keys_getElem keys there here
    refine row (some b.imports.toList[i].1) _ _ ?_
      (PathMap.getElem?_of_mem_toList (List.getElem_mem there))
    rw [files?, ← PathMap.getElem?_congr _ same]
    exact PathMap.getElem?_of_mem_toList (List.getElem_mem here)
  have exclusions : (a.exclusions == b.exclusions) = true := by
    rw [beq_iff_map_components, ← flatten_exclusionRows, ← flatten_exclusionRows, rows]
  exact Bool.and_eq_true_iff.2 ⟨exclusions, keys⟩

/-- Settings do not depend on what is tracked. -/
theorem sameSettings_of_files?_map {change : RootFiles → RootFiles}
    (files : ∀ place, b.files? place = (a.files? place).map change)
    (root : ∀ set, (change set).root = set.root)
    (excluded : ∀ set, (change set).excluded = set.excluded)
    (beside : b.beside = a.beside) : a.SameSettings b where
  root := by
    have principal : b.principal = change a.principal := Option.some.inj (files none)
    rw [Project.root, Project.root, principal, root]
    exact BEq.rfl
  exclusions place := by
    rw [exclusionsAt, exclusionsAt, files, Option.map_map]
    congr 1
    funext set path
    rw [Function.comp_apply, excluded]
  macros := (macros_of_beside beside).symm
  hiddenNames := (hiddenNames_of_beside beside).symm

/-- Nor do they depend on what waits and what was told. -/
theorem sameSettings_of_files? (files : ∀ place, b.files? place = a.files? place)
    (macros : b.macros = a.macros) (hiddenNames : b.hiddenNames = a.hiddenNames) :
    a.SameSettings b where
  root := by
    have principal : b.principal = a.principal := Option.some.inj (files none)
    rw [Project.root, Project.root, principal]
    exact BEq.rfl
  exclusions place := by rw [exclusionsAt, exclusionsAt, files]
  macros := macros.symm
  hiddenNames := hiddenNames.symm

theorem sameSettings_discoverAll (project : Project) (disk : Disk) :
    project.SameSettings (project.discoverAll disk).1 :=
  sameSettings_of_files?_map (files?_discoverAll project disk) (fun _ => rfl) (fun _ => rfl)
    (beside_discoverAll project disk)

theorem sameSettings_marked (project : Project) (disk : Disk) (settings : ProjectSettings) :
    (project.apply disk settings).project.SameSettings (project.marked disk settings) :=
  sameSettings_of_files? (files?_marked project disk settings)
    (macros_of_beside (beside_marked project disk settings))
    (hiddenNames_of_beside (beside_marked project disk settings))

theorem sameSettings_takeIn (project : Project) (delta : FileChanges) :
    project.SameSettings (project.takeIn delta).1 :=
  sameSettings_of_files? (files?_takeIn project delta) rfl rfl

/-- **Reading the settings again leaves those that were read.** -/
theorem sameSettings_refresh {stored : ProjectSettings}
    (read : ProjectSettings.read disk project.root = .ok (some stored)) :
    (project.apply disk stored).project.SameSettings (project.refresh disk).project := by
  rcases refresh_cases project disk with ⟨unread, -⟩ | ⟨other, read', ⟨-, kept⟩ | ⟨-, walked⟩⟩
  · exact absurd read (unread stored)
  · rw [read] at read'
    rw [kept, Option.some.inj (Except.ok.inj read')]
    exact sameSettings_marked project disk other
  · rw [read] at read'
    rw [walked, Option.some.inj (Except.ok.inj read')]
    exact (sameSettings_marked project disk other).trans (sameSettings_discoverAll _ disk)

/-! ## Whole projects -/

/-- The tracked files of the root at a place, each with its status, and the limits of its walks. -/
def trackedAt (project : Project) (place : Option Path) :
    Option ((Path → Option Bool) × DiscoveryLimits) :=
  (project.files? place).map fun set => (fun path => set.files[path]?, set.limits)

/-- Whether two projects are the same: they hold the same settings, the same files are tracked with
the same status, the same files wait, and a limit was told by both or by none. -/
structure Same (a b : Project) : Prop extends SameSettings a b where
  tracked : ∀ place, a.trackedAt place = b.trackedAt place
  waiting : ∀ file, a.waiting.contains file = b.waiting.contains file
  limitWarned : a.limitWarned = b.limitWarned

theorem Same.refl (project : Project) : project.Same project :=
  ⟨⟨BEq.rfl, fun _ => rfl, rfl, rfl⟩, fun _ => rfl, fun _ => rfl, rfl⟩

theorem Same.symm (h : a.Same b) : b.Same a :=
  ⟨h.toSameSettings.symm, fun place => (h.tracked place).symm, fun file => (h.waiting file).symm,
    h.limitWarned.symm⟩

theorem Same.trans (h : a.Same b) (h' : b.Same c) : a.Same c :=
  ⟨h.toSameSettings.trans h'.toSameSettings,
    fun place => (h.tracked place).trans (h'.tracked place),
    fun file => (h.waiting file).trans (h'.waiting file), h.limitWarned.trans h'.limitWarned⟩

/-- A project is what its roots, its settings and what waits are. -/
theorem same_of_files? (files : ∀ place, b.files? place = a.files? place)
    (beside : b.beside = a.beside) (waiting : b.waiting = a.waiting) :
    a.Same b where
  toSameSettings :=
    sameSettings_of_files? files (macros_of_beside beside) (hiddenNames_of_beside beside)
  tracked place := by rw [trackedAt, trackedAt, files]
  waiting file := by rw [waiting]
  limitWarned := (limitWarned_of_beside beside).symm

/-- Taking the same change in makes no difference. -/
theorem Same.takeIn (h : a.Same b) (delta : FileChanges) :
    (a.takeIn delta).1.Same (b.takeIn delta).1 where
  toSameSettings := ((sameSettings_takeIn a delta).symm.trans h.toSameSettings).trans
    (sameSettings_takeIn b delta)
  tracked place := by
    rw [trackedAt, trackedAt, files?_takeIn, files?_takeIn]
    exact h.tracked place
  waiting file := by rw [waiting_takeIn, waiting_takeIn, h.waiting]
  limitWarned := by simp only [Project.takeIn, h.limitWarned]

end Project

end SvServer
