import SvServer.Proofs.Project.Rooted
import SvServer.Proofs.Project.Waiting

/-!
# A project root by root

The principal root and the imported ones are treated alike: each has a place, and what a change does
to a project is said place by place. A project is in order when the files and exclusions of each
root lie beneath it, each import stands under its own root, and no root includes a file that it
excludes. A walk of all roots puts a project in order.
-/

namespace SvServer

namespace Project

/-! ## Places -/

/-- The files at a place: those of the principal root, or those of an import. -/
def files? (project : Project) : Option Path → Option RootFiles
  | none => some project.principal
  | some root => project.imports[root]?

theorem mem_rootFiles_iff {project : Project} {set : RootFiles} :
    set ∈ project.rootFiles ↔ ∃ place, project.files? place = some set := by
  rw [rootFiles, List.mem_cons]
  constructor
  · rintro (rfl | listed)
    · exact ⟨none, rfl⟩
    · rw [PathMap.values_eq_map_toList, List.mem_map] at listed
      obtain ⟨entry, listed, rfl⟩ := listed
      exact ⟨some entry.1, PathMap.getElem?_of_mem_toList listed⟩
  · rintro ⟨place, found⟩
    cases place with
    | none => exact .inl (Option.some.inj found).symm
    | some root => exact .inr (PathMap.mem_values_of_getElem? found)

/-- A project includes what some place of it includes. -/
theorem includes_iff_files? {project : Project} {file : Path} : project.includes file = true ↔
    ∃ place set, project.files? place = some set ∧ set.isIncluded file = true := by
  rw [includes, List.any_eq_true]
  simp only [mem_rootFiles_iff]
  constructor
  · rintro ⟨set, ⟨place, found⟩, included⟩
    exact ⟨place, set, found, included⟩
  · rintro ⟨place, set, found, included⟩
    exact ⟨set, ⟨place, found⟩, included⟩

theorem isExcluded_iff_files? {project : Project} {file : Path} : project.isExcluded file = true ↔
    ∃ place set, project.files? place = some set ∧ set.isExcluded file = true := by
  rw [isExcluded, List.any_eq_true]
  simp only [mem_rootFiles_iff]
  constructor
  · rintro ⟨set, ⟨place, found⟩, excluded⟩
    exact ⟨place, set, found, excluded⟩
  · rintro ⟨place, set, found, excluded⟩
    exact ⟨set, ⟨place, found⟩, excluded⟩

/-- The walk of one import, after the changes so far. -/
def walkImport (disk : Disk) (state : Project × FileChanges) (entry : Path × RootFiles) :
    Project × FileChanges :=
  ({ state.1 with imports := state.1.imports.put entry.1 (entry.2.discover disk).1 },
    state.2.merge (entry.2.discover disk).2)

/-- The walk of the principal root, which comes first. -/
def walkPrincipal (project : Project) (disk : Disk) : Project × FileChanges :=
  ({ project with principal := (project.principal.discover disk).1 },
    (project.principal.discover disk).2)

theorem discoverAll_eq (project : Project) (disk : Disk) :
    project.discoverAll disk =
      project.imports.toList.foldl (walkImport disk) (project.walkPrincipal disk) := rfl

theorem principal_discoverAll (project : Project) (disk : Disk) :
    (project.discoverAll disk).1.principal = (project.principal.discover disk).1 := by
  rw [discoverAll_eq]
  exact List.foldlRecOn (motive := fun state : Project × FileChanges =>
    state.1.principal = (project.principal.discover disk).1) project.imports.toList _ rfl
    fun _ h _ _ => h

/-- What stands at a root after a series of walks that put the same there. -/
theorem imports_foldl_walkImport (disk : Disk) {entries : List (Path × RootFiles)} {root : Path}
    {walked : Option RootFiles}
    (agree : ∀ entry ∈ entries, (entry.1 == root) = true →
      some (entry.2.discover disk).1 = walked) (state : Project × FileChanges) :
    (entries.foldl (walkImport disk) state).1.imports[root]? =
      if entries.any fun entry => entry.1 == root then walked else state.1.imports[root]? :=
  read_foldl (fun (state : Project × FileChanges) path => state.1.imports[path]?)
    (fun (entry : Path × RootFiles) path => entry.1 == path)
    (fun state entry path => PathMap.getElem?_put state.1.imports entry.1 path _) agree state

/-- **A walk of all roots walks the files at every place.** -/
theorem files?_discoverAll (project : Project) (disk : Disk) (place : Option Path) :
    (project.discoverAll disk).1.files? place =
      (project.files? place).map fun set => (set.discover disk).1 := by
  cases place with
  | none => exact congrArg some (principal_discoverAll project disk)
  | some root =>
      have agree : ∀ entry ∈ project.imports.toList, (entry.1 == root) = true →
          some (entry.2.discover disk).1 =
            project.imports[root]?.map fun set => (set.discover disk).1 := by
        intro entry listed same
        rw [← PathMap.getElem?_congr _ same, PathMap.getElem?_of_mem_toList listed]
        rfl
      refine (imports_foldl_walkImport disk agree (project.walkPrincipal disk)).trans ?_
      split
      · rfl
      · -- A root that is not listed has nothing stored.
        rename_i absent
        cases stored : project.imports[root]? with
        | none => simp [files?, walkPrincipal, stored]
        | some set =>
            obtain ⟨key, same, listed⟩ := PathMap.exists_mem_toList stored
            have here : (key == root) = true := BEq.symm same
            exact absurd (List.any_eq_true.2 ⟨_, listed, here⟩) absent

/-- Changing the files of all roots alike. -/
theorem files?_map (project : Project) (change : RootFiles → RootFiles) (place : Option Path) :
    ({ project with
      principal := change project.principal
      imports := project.imports.map fun _ set => change set } : Project).files? place =
      (project.files? place).map change := by
  cases place with
  | none => rfl
  | some root => exact PathMap.getElem?_mapValues project.imports change root

/-- The place that a path belongs to. -/
theorem files?_importAbove? {project : Project} (path : Path) :
    project.files? (project.importAbove? path) = some (project.filesFor path) := by
  rw [filesFor, importAbove?]
  cases above : project.imports.keys.find? path.isUnder with
  | none => rfl
  | some root =>
      have listed := List.mem_of_find?_eq_some above
      rw [← Std.ExtTreeMap.map_fst_toList_eq_keys, List.mem_map] at listed
      obtain ⟨entry, listed, rfl⟩ := listed
      rw [files?, Option.bind_some, PathMap.getElem?_of_mem_toList listed]
      rfl

theorem files?_putFilesFor (project : Project) (path : Path) (set : RootFiles)
    (place : Option Path) :
    (project.putFilesFor path set).files? place =
      if project.importAbove? path == place then some set else project.files? place := by
  rw [putFilesFor]
  cases project.importAbove? path with
  | none => cases place <;> rfl
  | some root =>
      cases place with
      | none => rfl
      | some other => exact PathMap.getElem?_put ..

/-! ## Order at every root -/

/-- The files of every root lie beneath it, and every import stands under its root. -/
structure Rooted (project : Project) : Prop where
  files : ∀ place set, project.files? place = some set → set.Rooted
  keys : ∀ (root : Path) (set : RootFiles), project.imports[root]? = some set →
    (set.root == root) = true

/-- No root includes a file that it excludes. -/
def Exact (project : Project) : Prop :=
  ∀ place set, project.files? place = some set → set.Exact

/-- What holds of every project that operations lead to. -/
structure Consistent (project : Project) : Prop extends Rooted project where
  exact : project.Exact

/-- Order is a matter of the files at each place. -/
theorem Rooted.of_files? {before after : Project} (h : before.Rooted)
    (same : ∀ place, after.files? place = before.files? place) : after.Rooted where
  files place set found := h.files place set (by rw [← same, found])
  keys root set found := h.keys root set ((same (some root)).symm.trans found)

theorem Consistent.of_files? {before after : Project} (h : before.Consistent)
    (same : ∀ place, after.files? place = before.files? place) : after.Consistent where
  toRooted := h.toRooted.of_files? same
  exact place set found := h.exact place set (by rw [← same, found])

/-- A change of the files at every place that leaves the roots where they are. -/
theorem Rooted.map {before after : Project} (h : before.Rooted) {change : RootFiles → RootFiles}
    (same : ∀ place, after.files? place = (before.files? place).map change)
    (root : ∀ set, (change set).root = set.root)
    (rooted : ∀ set, set.Rooted → (change set).Rooted) : after.Rooted where
  files place set found := by
    rw [same] at found
    obtain ⟨old, stored, rfl⟩ := Option.map_eq_some_iff.1 found
    exact rooted old (h.files place old stored)
  keys place set found := by
    have here := (same (some place)).symm.trans found
    obtain ⟨old, stored, rfl⟩ := Option.map_eq_some_iff.1 here
    rw [root]
    exact h.keys place old stored

/-- **A walk of all roots puts everything in order** that lies beneath its root. -/
theorem Rooted.consistent_discoverAll {project : Project} (h : project.Rooted) (disk : Disk) :
    (project.discoverAll disk).1.Consistent where
  toRooted := h.map (files?_discoverAll project disk) (fun _ => rfl) fun _ h => h.discover disk
  exact place set found := by
    rw [files?_discoverAll] at found
    obtain ⟨old, -, rfl⟩ := Option.map_eq_some_iff.1 found
    exact RootFiles.exact_discover old disk

theorem files?_insert (project : Project) (root : Path) (set : RootFiles) (place : Option Path) :
    ({ project with imports := project.imports.insert root set } : Project).files? place =
      if some root == place then some set else project.files? place := by
  cases place with
  | none => rfl
  | some other => exact PathMap.getElem?_insert ..

theorem Rooted.insert {project : Project} (h : project.Rooted) {root : Path} {set : RootFiles}
    (rooted : set.Rooted) (key : (set.root == root) = true) :
    Rooted { project with imports := project.imports.insert root set } where
  files place stored found := by
    rw [files?_insert] at found
    split at found
    · rw [← Option.some.inj found]
      exact rooted
    · exact h.files place stored found
  keys other stored found := by
    rw [PathMap.getElem?_insert] at found
    split at found
    · rename_i same
      rw [← Option.some.inj found]
      exact BEq.trans key same
    · exact h.keys other stored found

theorem Consistent.insert {project : Project} (h : project.Consistent) {root : Path}
    {set : RootFiles} (rooted : set.Rooted) (exact_ : set.Exact)
    (key : (set.root == root) = true) :
    Consistent { project with imports := project.imports.insert root set } where
  toRooted := h.toRooted.insert rooted key
  exact place stored found := by
    rw [files?_insert] at found
    split at found
    · rw [← Option.some.inj found]
      exact exact_
    · exact h.exact place stored found

/-- Files that are put under a root: those of the root, or those there were. -/
theorem includes_of_insert {project : Project} {root file : Path} {set : RootFiles}
    (included : ({ project with imports := project.imports.insert root set } : Project).includes file
      = true) : set.isIncluded file = true ∨ project.includes file = true := by
  obtain ⟨place, stored, found, included⟩ := includes_iff_files?.1 included
  rw [files?_insert] at found
  split at found
  · rw [Option.some.inj found]
    exact .inl included
  · exact .inr (includes_iff_files?.2 ⟨place, stored, found, included⟩)

/-- An import is added without files. -/
theorem includes_of_addImport {project : Project} {root file : Path}
    (included : (project.addImport root).includes file = true) : project.includes file = true := by
  rw [Project.addImport] at included
  split at included
  · exact included
  · refine (includes_of_insert included).resolve_left ?_
    rw [RootFiles.isIncluded_ofRoot]
    exact Bool.false_ne_true

/-- What is left of the places once an import was dropped. -/
theorem files?_dropImport {project : Project} {root : Path} {place : Option Path}
    {set : RootFiles} (found : (project.dropImport root).1.files? place = some set) :
    project.files? place = some set := by
  rw [dropImport] at found
  split at found
  · exact found
  · cases place with
    | none => exact found
    | some other =>
        rw [files?, PathMap.getElem?_erase] at found
        split at found
        · cases found
        · exact found

/-- Dropping an import includes no more files. -/
theorem includes_of_dropImport {project : Project} {root file : Path}
    (included : (project.dropImport root).1.includes file = true) :
    project.includes file = true := by
  obtain ⟨place, set, found, included⟩ := includes_iff_files?.1 included
  exact includes_iff_files?.2 ⟨place, set, files?_dropImport found, included⟩

theorem Rooted.dropImport {project : Project} (h : project.Rooted) (root : Path) :
    (project.dropImport root).1.Rooted where
  files place set found := h.files place set (files?_dropImport found)
  keys other set found :=
    h.keys other set (files?_dropImport (show files? _ (some other) = some set from found))

theorem Consistent.dropImport {project : Project} (h : project.Consistent) (root : Path) :
    (project.dropImport root).1.Consistent where
  toRooted := h.toRooted.dropImport root
  exact place set found := h.exact place set (files?_dropImport found)

/-- An added import stands under its root if that is in normal form. -/
theorem Rooted.addImport {project : Project} (h : project.Rooted) {root : Path}
    (normal : root.IsNormal) : (project.addImport root).Rooted := by
  rw [Project.addImport]
  split
  · exact h
  · exact h.insert (RootFiles.rooted_ofRoot root _) (Path.beq_iff.2 normal)

/-- The roots that settings name are in normal form. -/
theorem isNormal_of_wantedImports {disk : Disk} {entries : List String} {root : Path}
    (wanted : root ∈ (wantedImports disk entries).toList) : root.IsNormal := by
  have member := PathSet.contains_of_mem_toList wanted
  rw [wantedImports, PathSet.contains_collect, List.contains_iff_exists_mem_beq] at member
  obtain ⟨path, listed, same⟩ := member
  obtain ⟨entry, -, rfl⟩ := List.mem_map.1 (List.mem_filter.1 listed).1
  have normal := (Path.ofString entry).isNormal_normalize
  rw [Path.IsNormal, Path.normalize] at normal ⊢
  rwa [Path.beq_iff.1 same]

/-- One import is dropped, after the changes so far. -/
def dropStep (state : Project × FileChanges) (root : Path) : Project × FileChanges :=
  ((state.1.dropImport root).1, state.2.merge (state.1.dropImport root).2)

/-- The imports that settings do not name are dropped. -/
def dropUnwanted (project : Project) (disk : Disk) (entries : List String) :
    Project × FileChanges :=
  (project.imports.keys.filter fun root => !(wantedImports disk entries).contains root).foldl
    dropStep (project, .empty)

theorem importRoots_eq (project : Project) (disk : Disk) (entries : List String) :
    project.importRoots disk entries =
      ((wantedImports disk entries).toList.foldl addImport (project.dropUnwanted disk entries).1,
        (project.dropUnwanted disk entries).2) := rfl

/-- Dropping and adding imports, the changes of `importRoots` one by one. -/
theorem importRoots_induction (holds : Project → Prop) (project : Project) (disk : Disk)
    (entries : List String) (start : holds project)
    (drop : ∀ between root, (wantedImports disk entries).contains root = false →
      holds between → holds (between.dropImport root).1)
    (add : ∀ between root, root ∈ (wantedImports disk entries).toList →
      holds between → holds (between.addImport root)) :
    holds (project.importRoots disk entries).1 := by
  have dropped : holds (project.dropUnwanted disk entries).1 := by
    refine List.foldlRecOn (motive := fun state : Project × FileChanges => holds state.1) _
      dropStep start fun state h root listed => ?_
    exact drop state.1 root (by simpa using (List.mem_filter.1 listed).2) h
  rw [importRoots_eq]
  exact List.foldlRecOn (motive := holds) _ addImport dropped fun between h root listed =>
    add between root listed h

theorem Rooted.importRoots {project : Project} (h : project.Rooted) (disk : Disk)
    (entries : List String) : (project.importRoots disk entries).1.Rooted :=
  importRoots_induction Rooted project disk entries h (fun _ root _ h => h.dropImport root)
    fun _ _ wanted h => h.addImport (isNormal_of_wantedImports wanted)

/-- Imports that settings list stay as they are, and new ones have no files yet. -/
theorem files?_importRoots {project : Project} {disk : Disk} {entries : List String}
    {place : Option Path} {set : RootFiles}
    (found : (project.importRoots disk entries).1.files? place = some set) :
    project.files? place = some set ∨ ∀ file, set.isIncluded file = false := by
  refine importRoots_induction (fun between => between.files? place = some set →
      project.files? place = some set ∨ ∀ file, set.isIncluded file = false)
    project disk entries .inl ?_ ?_ found
  · exact fun between root _ known found => known (files?_dropImport found)
  · intro between root _ known found
    rw [addImport] at found
    split at found
    · exact known found
    · rw [files?_insert] at found
      split at found
      · rw [← Option.some.inj found]
        exact .inr (RootFiles.isIncluded_ofRoot root _)
      · exact known found

/-- The principal root is no import. -/
theorem principal_importRoots (project : Project) (disk : Disk) (entries : List String) :
    (project.importRoots disk entries).1.principal = project.principal := by
  refine importRoots_induction (fun between => between.principal = project.principal)
    project disk entries rfl ?_ ?_
  · intro between root _ known
    rw [dropImport]
    split <;> exact known
  · intro between root _ known
    rw [addImport]
    split <;> exact known

/-- Other files in the place of those that a path belongs to. -/
theorem Consistent.putFilesFor {project : Project} (h : project.Consistent) {path : Path} {set : RootFiles}
    (keeps : (project.filesFor path).Keeps set) : (project.putFilesFor path set).Consistent := by
  have before : project.files? (project.importAbove? path) = some (project.filesFor path) :=
    files?_importAbove? path
  have rooted := h.files _ _ before
  have exact_ := h.exact _ _ before
  refine ⟨⟨fun place after found => ?_, fun root after found => ?_⟩, fun place after found => ?_⟩
  · rw [files?_putFilesFor] at found
    split at found
    · rw [← Option.some.inj found]
      exact keeps.rooted rooted
    · exact h.files place after found
  · have here := (files?_putFilesFor project path set (some root)).symm.trans found
    split at here
    · rename_i same
      rw [← Option.some.inj here, keeps.root]
      cases above : project.importAbove? path with
      | none =>
          rw [above] at same
          exact absurd same (by simp)
      | some other =>
          rw [above] at same before
          exact BEq.trans (h.keys other _ before) same
    · exact h.keys root after here
  · rw [files?_putFilesFor] at found
    split at found
    · rw [← Option.some.inj found]
      exact keeps.exact rooted exact_
    · exact h.exact place after found

end Project

end SvServer
