import SvServer.Proofs.Project.Reloading
import SvServer.Proofs.Project.Saving
import SvServer.Proofs.Project.Stored

/-!
# What is left of a project when it is opened again

A change of a project writes its settings. When the project is opened again later, and all that it
excludes and imports is there still, it has the settings that it was closed with: but for imports that
are relative paths, which are written and never read back, and for imports inside of imports, of which
only the outermost are taken in.
-/

namespace SvServer.Project

variable {project after a b : Project} {disk later saved : Disk} {base : ProjectSettings}

/-! ## Projects on disks of a kind -/

/-- Whether a project comes of an opened one with only disks of a kind on the way. -/
def CameOn (project : Project) (kind : Disk → Prop) : Prop :=
  ∃ (disk : Disk) (root : Path) (limits : DiscoveryLimits) (start : Project) (followUp : FollowUp)
    (steps : List Step), kind disk ∧
      (∀ step ∈ steps, ∀ disk, step.disk? = some disk → kind disk) ∧
      openRoot disk root limits = .ok (start, followUp) ∧ start.afterSteps steps = project

theorem CameOn.reachable {kind : Disk → Prop} (h : project.CameOn kind) : project.Reachable := by
  obtain ⟨disk, root, limits, start, followUp, steps, -, -, opens, rfl⟩ := h
  exact (Reachable.opened opens).afterSteps steps

/-- What is kept on all disks of the kind holds at every root. -/
theorem CameOn.everywhere {kind : Disk → Prop} {holds : RootFiles → Prop} (h : project.CameOn kind)
    (kept : ∀ disk, kind disk → RootFiles.Kept disk holds) : project.Everywhere holds := by
  obtain ⟨disk, root, limits, start, followUp, steps, here, there, opens, rfl⟩ := h
  exact (everywhere_openRoot opens (kept disk here)).afterSteps fun step listed disk at_ =>
    kept disk (there step listed disk at_)

/-- Only where there is a folder can a project be opened. -/
theorem components_ne_nil_of_openRoot {root : Path} {limits : DiscoveryLimits} {followUp : FollowUp}
    (opens : openRoot disk root limits = .ok (project, followUp)) :
    root.normalize.components ≠ [] := by
  intro none
  have written := Path.ofComponents_components root.normalize_normalize
  rw [none] at written
  have nowhere : disk.isFolder root.normalize = false := by
    rw [← written]
    rfl
  rw [openRoot] at opens
  dsimp only at opens
  rw [nowhere] at opens
  cases opens

theorem root_openRoot {root : Path} {limits : DiscoveryLimits} {followUp : FollowUp}
    (opens : openRoot disk root limits = .ok (project, followUp)) :
    project.root = root.normalize := by
  obtain ⟨settings, delta, rfl⟩ := eq_of_openRoot opens
  have walked := (altered_apply (ofRoot root.normalize limits) disk settings).trans
    (altered_discoverAll _ disk)
  have start : (ofRoot root.normalize limits).root = root.normalize := root.normalize_normalize
  refine (root_of_altered (altered_of_files? walked fun place => ?_)).trans start
  rw [files?_addAllWaiting, files?_takeIn]

/-- The principal root of a project is somewhere: it was a folder when the project was opened. -/
theorem Reachable.root_ne (h : project.Reachable) : project.root.components ≠ [] := by
  induction h with
  | opened opens =>
      rw [root_openRoot opens]
      exact components_ne_nil_of_openRoot opens
  | performed disk operation _ ih => rwa [root_perform]
  | dropped disk path _ ih => rwa [root_of_altered (altered_dropMissing _ disk path)]
  | waits path _ ih => exact ih
  | allWait _ ih => exact ih
  | handedOver _ ih => exact ih

/-! ## The same roots -/

/-- Where projects have the same settings, the same roots stand at the same places. -/
theorem SameSettings.root_beq (h : a.SameSettings b) (rooted : a.Rooted) (rooted' : b.Rooted)
    {place : Option Path} {set other : RootFiles} (found : a.files? place = some set)
    (found' : b.files? place = some other) : (set.root == other.root) = true := by
  cases place with
  | none =>
      rw [← Option.some.inj found, ← Option.some.inj found']
      exact h.root
  | some root => exact BEq.trans (rooted.keys root set found) (BEq.symm (rooted'.keys root other found'))

theorem SameSettings.exists_files? (h : a.SameSettings b) {place : Option Path} {set : RootFiles}
    (found : a.files? place = some set) : ∃ other, b.files? place = some other := by
  have same := congrArg Option.isSome (h.exclusions place)
  rw [exclusionsAt, exclusionsAt, Option.isSome_map, Option.isSome_map, found] at same
  exact Option.isSome_iff_exists.1 same.symm

/-- Roots that are apart are apart in every project with the same settings. -/
theorem SameSettings.apart (h : a.SameSettings b) (rooted : a.Rooted) (rooted' : b.Rooted)
    (apart : b.Apart) : a.Apart := by
  refine apart_iff.2 fun place place' set set' found found' overlap => ?_
  obtain ⟨other, stored⟩ := h.exists_files? found
  obtain ⟨other', stored'⟩ := h.exists_files? found'
  refine apart_iff.1 apart place place' other other' stored stored' ?_
  rw [← Path.overlaps_congr (h.root_beq rooted rooted' found stored),
    ← Path.overlaps_congr_right (h.root_beq rooted rooted' found' stored'), overlap]

/-! ## Reading back -/

/-- **Settings that were written are read**, as far as their text is. -/
theorem read_of_write {settings : ProjectSettings} {root : Path}
    (written : settings.write disk root = .ok saved)
    (back : ProjectSettings.ofText? settings.text = some settings)
    (kept : later.resolve (ProjectSettings.fileOf root) =
      saved.resolve (ProjectSettings.fileOf root)) :
    ProjectSettings.read later root = .ok (some settings) := by
  rw [ProjectSettings.write] at written
  cases wrote : disk.write (ProjectSettings.fileOf root) settings.text with
  | error error => rw [wrote] at written; cases written
  | ok saved' =>
      rw [wrote] at written
      obtain rfl := Except.ok.inj written
      obtain ⟨⟨text, size, modified⟩, same, led⟩ := Disk.resolve_of_write wrote
      dsimp only at same
      rw [ProjectSettings.read, kept, led, same]
      dsimp only
      rw [back]

/-- Where settings are read, there is a folder. -/
theorem isFolder_of_read {root : Path} {settings : ProjectSettings}
    (normal : root.normalize = root) (nonempty : root.components ≠ [])
    (read : ProjectSettings.read disk root = .ok (some settings)) : disk.isFolder root = true := by
  rw [ProjectSettings.read] at read
  split at read
  · cases read
  · rename_i led
    obtain ⟨readable, inside, found, -⟩ :=
      Disk.exists_folder_of_resolve_child normal nonempty
        ⟨by decide, by decide, by decide⟩ led
    rw [Disk.isFolder, found]
  · cases read

/-- Settings that can be read are those that a change is written over. -/
theorem stored_refresh {previous : ProjectSettings}
    (read : ProjectSettings.read disk project.root = .ok (some previous)) :
    (project.refresh disk).stored = previous := by
  rw [refresh, read]
  dsimp only
  split <;> split <;> rfl

/-- What is there still when a project is opened again: its settings as they were saved, and all
that it excludes and imports. -/
structure Finds (project : Project) (saved later : Disk) : Prop where
  settings : later.resolve (ProjectSettings.fileOf project.root) =
    saved.resolve (ProjectSettings.fileOf project.root)
  excluded : project.Everywhere fun set =>
    ∀ path ∈ set.excluded.toList, later.pathExists path = true
  imports : ∀ (root : Path) (set : RootFiles), project.imports[root]? = some set →
    later.isFolder set.root = true

/-- The exclusions that a root takes from stored settings. -/
theorem contains_walked_settings (rooted : project.Rooted) (storable : project.Storable)
    (apart : project.Apart) (finds : project.Finds saved later) {place : Option Path}
    {set other : RootFiles} (found : project.files? place = some set)
    (same : (set.root == other.root) = true) (base : ProjectSettings) (path : Path) :
    (walked project.root later (project.settings base) other).excluded.contains path =
      set.excluded.contains path := by
  have taken : (walked project.root later (project.settings base) other).excluded =
    (other.setExclusions later project.root (project.settings base).excludePaths).excluded := rfl
  rw [taken, Bool.eq_iff_iff, RootFiles.contains_setExclusions, read_excludePaths storable rooted]
  constructor
  · rintro ⟨entry, listed, here, beneath, -⟩
    obtain ⟨owner, member, listed⟩ := List.mem_flatMap.1 listed
    obtain ⟨place', found'⟩ := mem_rootFiles_iff.1 member
    have excluded := PathSet.contains_of_mem_toList listed
    have above := (rooted.files place' owner found').excluded entry excluded
    rw [← Path.isUnder_congr_above same] at beneath
    -- The entry lies beneath one root only.
    have one := apart.eq_of_common (mem_rootFiles_iff.2 ⟨place, found⟩) member beneath above
    rw [one, PathSet.contains_congr _ here]
    exact excluded
  · intro excluded
    obtain ⟨entry, listed, here⟩ := PathSet.exists_mem_toList excluded
    have member : set ∈ project.rootFiles := mem_rootFiles_iff.2 ⟨place, found⟩
    have beneath := (rooted.files place set found).excluded entry
      (PathSet.contains_of_mem_toList listed)
    refine ⟨entry, List.mem_flatMap.2 ⟨set, member, listed⟩, here, ?_,
      finds.excluded place set found entry listed⟩
    rwa [← Path.isUnder_congr_above same]

section NewProject

variable {fresh : Project} (h : project.Reachable) (storable : project.Storable)
variable (apart : project.Apart) (named : later.isWellNamed = true)
variable (finds : project.Finds saved later) (rooted : fresh.Rooted)
variable (root : fresh.root = project.root) (none : fresh.imports = ∅)

include h storable apart named finds rooted root none

/-- The imports that a new project takes from stored settings. -/
theorem contains_importRoots_settings (base : ProjectSettings) (path : Path) :
    (fresh.importRoots later (project.settings base).imports).1.imports.contains path =
      project.imports.contains path := by
  have wanted := contains_wantedImports_settings storable h.consistent.toRooted h.normalize_root
    named finds.imports base
  have keys := h.consistent.keys
  rw [Bool.eq_iff_iff, contains_importRoots_of_empty rooted none, wanted]
  simp only [wanted, root]
  constructor
  · exact fun imported => imported.1
  · intro member
    obtain ⟨set, found⟩ := contains_imports_iff.1 member
    refine ⟨member, h.clearOfRoot path set found, fun other member' _ beneath => ?_⟩
    obtain ⟨set', found'⟩ := contains_imports_iff.1 member'
    have overlap : set'.root.overlaps set.root = true := by
      rw [Path.overlaps_congr (keys other set' found'),
        Path.overlaps_congr_right (keys path set found), Path.overlaps_iff]
      exact .inr beneath
    exact apart_iff.1 apart (some other) (some path) set' set found' found overlap

/-- The roots that a new project takes from stored settings stand at the same places. -/
theorem files?_importRoots_settings (base : ProjectSettings) (place : Option Path) :
    (project.files? place = .none ∧
      (fresh.importRoots later (project.settings base).imports).1.files? place = .none) ∨
    ∃ set other, project.files? place = some set ∧
      (fresh.importRoots later (project.settings base).imports).1.files? place = some other ∧
      (set.root == other.root) = true := by
  cases place with
  | none =>
      refine .inr ⟨_, _, rfl, rfl, ?_⟩
      have same : project.root = fresh.principal.root := root.symm
      rw [principal_importRoots, ← same]
      exact BEq.rfl
  | some key =>
      have member := contains_importRoots_settings h storable apart named finds rooted root none base
        key
      rw [Std.ExtTreeMap.contains_eq_isSome_getElem?, Std.ExtTreeMap.contains_eq_isSome_getElem?]
        at member
      cases found : project.imports[key]? with
      | none =>
          rw [found, Option.isSome_none, Option.isSome_eq_false_iff, Option.isNone_iff_eq_none]
            at member
          exact .inl ⟨found, member⟩
      | some set =>
          rw [found, Option.isSome_some, Option.isSome_iff_exists] at member
          obtain ⟨other, found'⟩ := member
          have same := h.consistent.keys key set found
          have same' := (rooted.importRoots later _).keys key other found'
          exact .inr ⟨set, other, found, found', BEq.trans same (BEq.symm same')⟩

end NewProject

theorem macros_settings (project : Project) (base : ProjectSettings) :
    (project.settings base).macros = project.macros.toList := rfl

theorem hiddenNames_settings (project : Project) (base : ProjectSettings) :
    (project.settings base).hiddenNames = project.hiddenNames.toList := rfl

theorem hiddenNames_apply (project : Project) (disk : Disk) (settings : ProjectSettings) :
    (project.apply disk settings).project.hiddenNames = .ofList settings.hiddenNames compare := rfl

/-- **Under its stored settings, a project has the same settings again.** -/
theorem sameSettings_rewalk (h : project.Reachable) (storable : project.Storable)
    (apart : project.Apart) (named : later.isWellNamed = true) (finds : project.Finds saved later)
    (read : ProjectSettings.read later project.root = .ok (some (project.settings base)))
    (limits : DiscoveryLimits) :
    project.SameSettings ((ofRoot project.root limits).rewalk later).1 := by
  have root : (ofRoot project.root limits).root = project.root := h.normalize_root none _ rfl
  have fresh := (consistent_ofRoot project.root limits).toRooted
  have stored : ProjectSettings.readOrEmpty later project.root = project.settings base := by
    rw [ProjectSettings.readOrEmpty, read]
  refine ⟨?_, fun place => ?_, ?_, ?_⟩
  · have stays := root_of_altered ((altered_apply (ofRoot project.root limits) later
      (ProjectSettings.readOrEmpty later (ofRoot project.root limits).root)).trans
        (altered_discoverAll _ later))
    rw [rewalk, applied, stays, root]
    exact BEq.rfl
  · rw [exclusionsAt, exclusionsAt, files?_rewalk, root, stored]
    rcases files?_importRoots_settings h storable apart named finds fresh root rfl base place with
      ⟨absent, absent'⟩ | ⟨set, other, found, found', same⟩
    · rw [absent, absent']
      rfl
    · rw [found, found', Option.map_some, Option.map_some, Option.map_some]
      congr 1
      funext path
      exact (contains_walked_settings h.consistent.toRooted storable apart finds found same base
        path).symm
  · obtain ⟨given, macros⟩ := h.listsMacros
    rw [macros_of_beside (beside_rewalk _ later), applied, root, stored, macros_apply,
      macros_settings, macros, MacroTable.ofList_toList]
  · rw [hiddenNames_of_beside (beside_rewalk _ later), applied, root, stored, hiddenNames_apply,
      hiddenNames_settings, ofList_toList_hiddenNames]

/-- Whether a change of the settings succeeded and was written. -/
structure Writes (project : Project) (disk : Disk) (operation : Operation) (after : Project)
    (saved : Disk) : Prop where
  accepted : project.accepted? disk operation = some (after, saved)
  /-- The file could be written -/
  written : ∃ written, (after.settings (project.refresh disk).stored).write disk project.root =
    .ok written
  /-- What is printed as JSON is parsed as what it was printed from -/
  back : ProjectSettings.ofText? (after.settings (project.refresh disk).stored).text =
    some (after.settings (project.refresh disk).stored)

/-- What is read when a project is opened again after a change. -/
theorem Writes.read {operation : Operation} (h : project.Writes disk operation after saved)
    (kept : later.resolve (ProjectSettings.fileOf after.root) =
      saved.resolve (ProjectSettings.fileOf after.root)) :
    ProjectSettings.read later after.root =
      .ok (some (after.settings (project.refresh disk).stored)) := by
  obtain ⟨moved, saves⟩ := saved_of_accepted h.accepted
  obtain ⟨written, writes⟩ := h.written
  have root : after.root = project.root := by rw [moved, root_perform]
  rw [saveSettings, root, writes] at saves
  rw [root] at kept ⊢
  rw [saves] at kept
  exact read_of_write writes h.back kept

/-- Settings can be stored if they can be read at all and name no relative import. -/
theorem storable_of_finds (h : project.Reachable)
    (normal : project.Everywhere RootFiles.NormalExclusions) (named : later.isWellNamed = true)
    (finds : project.Finds saved later)
    (absolute : ∀ root : Path, project.imports.contains root = true → root.isAbsolute = true) :
    project.Storable where
  normal := normal
  slashless place set found path listed :=
    Disk.slashless_of_pathExists named (finds.excluded place set found path listed)
  root := h.root_ne
  absolute := absolute

theorem isAbsolute_of_wantedImports {entries : List String} {path : Path}
    (listed : (wantedImports disk entries).contains path = true) : path.isAbsolute = true := by
  rw [wantedImports, PathSet.contains_collect, List.contains_iff_exists_mem_beq] at listed
  obtain ⟨entry, member, same⟩ := listed
  have usable := (List.mem_filter.1 member).2
  rw [Path.isAbsolute_congr same]
  exact (Bool.and_eq_true_iff.1 usable).1

/-- A project that was just opened imports no relative path. -/
theorem isAbsolute_of_rewalk {root path : Path} {limits : DiscoveryLimits}
    (member : ((ofRoot root limits).rewalk disk).1.imports.contains path = true) :
    path.isAbsolute = true := by
  rw [contains_imports, exclusionsAt, files?_rewalk, Option.isSome_map, Option.isSome_map, files?,
    ← Std.ExtTreeMap.contains_eq_isSome_getElem?,
    contains_importRoots_of_empty (consistent_ofRoot root limits).toRooted rfl] at member
  exact isAbsolute_of_wantedImports member.1

theorem Agrees.sameSettings (h : a.Agrees b) : a.SameSettings b :=
  sameSettings_of_files? (fun place => (h.files place).symm) h.macros.symm h.hiddenNames.symm

/-- **When a project has its settings again** once they were written and it is opened again: none of
its imports is a relative path, and none lies inside another one. -/
theorem sameSettings_reopened_iff (h : after.Reachable)
    (normal : after.Everywhere RootFiles.NormalExclusions) (named : later.isWellNamed = true)
    (finds : after.Finds saved later)
    (read : ProjectSettings.read later after.root = .ok (some (after.settings base)))
    (limits : DiscoveryLimits) :
    (∃ reopened followUp, openRoot later after.root limits = .ok (reopened, followUp) ∧
        after.SameSettings reopened) ↔
      (∀ root : Path, after.imports.contains root = true → root.isAbsolute = true) ∧
        after.Apart := by
  have normalRoot : after.root.normalize = after.root := h.normalize_root none _ rfl
  have opens_ := openRoot_eq later normalRoot limits
  rw [if_pos (isFolder_of_read normalRoot h.root_ne read)] at opens_
  constructor
  · rintro ⟨reopened, followUp, opens, same⟩
    have apart := same.apart h.consistent.toRooted (Reachable.opened opens).consistent.toRooted
      (apart_openRoot opens)
    rw [opens_] at opens
    obtain ⟨rfl, -⟩ := Prod.mk.inj (Except.ok.inj opens)
    refine ⟨fun root member => ?_, apart⟩
    have walked := same.trans (agrees_finish _ _ _).sameSettings
    exact isAbsolute_of_rewalk ((walked.imports root).symm.trans member)
  · rintro ⟨absolute, apart⟩
    have storable := storable_of_finds h normal named finds absolute
    have walked := sameSettings_rewalk h storable apart named finds read limits
    exact ⟨_, _, opens_, walked.trans (agrees_finish _ _ _).symm.sameSettings⟩

/-- **What is left of a change when the project is opened again**: all its settings, exactly if none
of the imports is a relative path and none lies inside another one; and what the settings file held
for other tools, in any case. -/
theorem reopens_with_settings_iff
    (came : project.CameOn fun disk => disk.isWellNamed = true) (named : disk.isWellNamed = true)
    {operation : Operation} (writes : project.Writes disk operation after saved)
    (named' : later.isWellNamed = true) (finds : after.Finds saved later)
    (limits : DiscoveryLimits) :
    ((∃ reopened followUp, openRoot later project.root limits = .ok (reopened, followUp) ∧
        after.SameSettings reopened) ↔
      (∀ root : Path, after.imports.contains root = true → root.isAbsolute = true) ∧
        after.Apart) ∧
    ∀ previous, ProjectSettings.read disk project.root = .ok (some previous) →
      ∃ again, ProjectSettings.read later project.root = .ok (some again) ∧
        again.extra = previous.extra := by
  have moved := (saved_of_accepted writes.accepted).1
  have read := writes.read finds.settings
  have reachable : after.Reachable := by
    rw [moved]
    exact .performed disk operation came.reachable
  have normal : after.Everywhere RootFiles.NormalExclusions := by
    rw [moved]
    exact (came.everywhere fun _ => RootFiles.kept_normalExclusions).perform
      (RootFiles.kept_normalExclusions named) operation
  have root : after.root = project.root := by rw [moved, root_perform]
  rw [← root]
  refine ⟨sameSettings_reopened_iff reachable normal named' finds read limits, ?_⟩
  intro previous before
  rw [root] at before
  refine ⟨_, read, ?_⟩
  rw [settings, stored_refresh before]

/-! ## A library that is added by a relative path -/

theorem finds_of_rootFiles
    (settings : later.resolve (ProjectSettings.fileOf project.root) =
      saved.resolve (ProjectSettings.fileOf project.root))
    (excluded : ∀ set ∈ project.rootFiles, ∀ path ∈ set.excluded.toList,
      later.pathExists path = true)
    (folders : ∀ set ∈ project.rootFiles, later.isFolder set.root = true) :
    project.Finds saved later where
  settings := settings
  excluded place set found := excluded set (mem_rootFiles_iff.2 ⟨place, found⟩)
  imports root set found := folders set (mem_rootFiles_iff.2 ⟨some root, found⟩)

/-- Settings without foreign keys are read back if their parts are. -/
theorem ofText?_eq_of_parts {settings : ProjectSettings} (none : settings.extra.isEmpty = true)
    (parts : ((ProjectSettings.ofText? settings.text).map fun read =>
      (read.excludePaths, read.imports, read.macros, read.hiddenNames, read.extra.isEmpty)) =
        some (settings.excludePaths, settings.imports, settings.macros, settings.hiddenNames, true)) :
    ProjectSettings.ofText? settings.text = some settings := by
  obtain ⟨read, same, equal⟩ := Option.map_eq_some_iff.1 parts
  rw [same]
  obtain ⟨excludePaths, imports, macros, hiddenNames, extra⟩ := settings
  obtain ⟨excludePaths', imports', macros', hiddenNames', extra'⟩ := read
  simp only [Prod.mk.injEq, List.isEmpty_iff] at equal none
  obtain ⟨rfl, rfl, rfl, rfl, rfl⟩ := equal
  rw [none]

/-- The project and the disk once the library was added by a path. -/
def libraryAdded (path : Path) : Project × Disk :=
  (libraryProject.accepted? (libraryDisk .empty) (.addRoot path)).getD (libraryProject, default)

/-- The settings that are written by then. -/
def librarySettings (path : Path) : ProjectSettings :=
  (libraryAdded path).1.settings (libraryProject.refresh (libraryDisk .empty)).stored

theorem writes_libraryAdded {path : Path}
    (made : (libraryProject.accepted? (libraryDisk .empty) (.addRoot path)).isSome = true)
    (written : ((librarySettings path).write (libraryDisk .empty)
      libraryProject.root).toOption.isSome = true)
    (none : (librarySettings path).extra.isEmpty = true)
    (parts : ((ProjectSettings.ofText? (librarySettings path).text).map fun read =>
      (read.excludePaths, read.imports, read.macros, read.hiddenNames, read.extra.isEmpty)) =
        some ((librarySettings path).excludePaths, (librarySettings path).imports,
          (librarySettings path).macros, (librarySettings path).hiddenNames, true)) :
    libraryProject.Writes (libraryDisk .empty) (.addRoot path) (libraryAdded path).1
      (libraryAdded path).2 where
  accepted := by
    obtain ⟨made, same⟩ := Option.isSome_iff_exists.1 made
    rw [libraryAdded, same]
    rfl
  written := ⟨_, eq_ok_of_isSome written⟩
  back := ofText?_eq_of_parts none parts

theorem came_libraryProject : libraryProject.CameOn fun disk => disk.isWellNamed = true :=
  ⟨_, _, _, _, _, [], by decide, nofun, opens_libraryProject, rfl⟩

theorem writes_library_in_full : libraryProject.Writes (libraryDisk .empty)
    (.addRoot (.ofString "/lib")) (libraryAdded (.ofString "/lib")).1
      (libraryAdded (.ofString "/lib")).2 :=
  writes_libraryAdded (by decide +kernel) (by decide +kernel) (by decide +kernel)
    (by decide +kernel)

theorem finds_library_in_full :
    (libraryAdded (.ofString "/lib")).1.Finds (libraryAdded (.ofString "/lib")).2
      (libraryAdded (.ofString "/lib")).2 :=
  finds_of_rootFiles rfl (by decide +kernel) (by decide +kernel)

/-- What is left of a library that was added by its absolute path. -/
theorem reopens_with_library_iff :
    libraryProject.CameOn (fun disk => disk.isWellNamed = true) ∧
    (libraryDisk .empty).isWellNamed = true ∧
    libraryProject.Writes (libraryDisk .empty) (.addRoot (.ofString "/lib"))
      (libraryAdded (.ofString "/lib")).1 (libraryAdded (.ofString "/lib")).2 ∧
    (libraryAdded (.ofString "/lib")).2.isWellNamed = true ∧
    (libraryAdded (.ofString "/lib")).1.Finds (libraryAdded (.ofString "/lib")).2
      (libraryAdded (.ofString "/lib")).2 ∧
    ((∃ reopened followUp, openRoot (libraryAdded (.ofString "/lib")).2 libraryProject.root
        ⟨100, 100⟩ = .ok (reopened, followUp) ∧
          (libraryAdded (.ofString "/lib")).1.SameSettings reopened) ↔
      (∀ root : Path, (libraryAdded (.ofString "/lib")).1.imports.contains root = true →
        root.isAbsolute = true) ∧ (libraryAdded (.ofString "/lib")).1.Apart) := by
  have named : (libraryAdded (.ofString "/lib")).2.isWellNamed = true := by decide +kernel
  exact ⟨came_libraryProject, by decide, writes_library_in_full, named, finds_library_in_full,
    (reopens_with_settings_iff came_libraryProject (by decide) writes_library_in_full named
      finds_library_in_full ⟨100, 100⟩).1⟩

/-- **A library that was added by a relative path is gone** once the project is opened again, though
the change succeeded, its settings were written and the folder is there. -/
theorem not_reopens_with_relative_library :
    libraryProject.Reachable ∧ libraryProject.Apart ∧
    libraryProject.Writes (libraryDisk .empty) (.addRoot (.ofString "lib"))
      (libraryAdded (.ofString "lib")).1 (libraryAdded (.ofString "lib")).2 ∧
    (libraryAdded (.ofString "lib")).1.Finds (libraryAdded (.ofString "lib")).2
      (libraryAdded (.ofString "lib")).2 ∧
    ¬∃ reopened followUp, openRoot (libraryAdded (.ofString "lib")).2 libraryProject.root
        ⟨100, 100⟩ = .ok (reopened, followUp) ∧
          (libraryAdded (.ofString "lib")).1.SameSettings reopened := by
  have writes : libraryProject.Writes (libraryDisk .empty) (.addRoot (.ofString "lib"))
      (libraryAdded (.ofString "lib")).1 (libraryAdded (.ofString "lib")).2 :=
    writes_libraryAdded (by decide +kernel) (by decide +kernel) (by decide +kernel)
      (by decide +kernel)
  have finds : (libraryAdded (.ofString "lib")).1.Finds (libraryAdded (.ofString "lib")).2
      (libraryAdded (.ofString "lib")).2 :=
    finds_of_rootFiles rfl (by decide +kernel) (by decide +kernel)
  refine ⟨came_libraryProject.reachable, by decide +kernel, writes, finds, ?_⟩
  rintro ⟨reopened, followUp, opens, same⟩
  have before : (libraryAdded (.ofString "lib")).1.imports.contains (.ofString "lib") = true := by
    decide +kernel
  have gone : (openRoot (libraryAdded (.ofString "lib")).2 libraryProject.root
      ⟨100, 100⟩).toOption.any (fun opened => opened.1.imports.contains (.ofString "lib")) =
        false := by
    decide +kernel
  rw [opens] at gone
  rw [same.imports] at before
  exact Bool.false_ne_true (gone.symm.trans before)

end SvServer.Project
