import SvServer.Proofs.Project.Nesting
import SvServer.Proofs.Project.Refreshing

/-!
# Reloading and reopening

To reload a project is to apply the settings on the disk to the roots that it has; to open it again
is to apply them to its principal root alone. Nothing of what the project had before is left in the
end, with one exception: an import that the settings still list is kept even if they now list a root
above it, which then finds no room. A project that is opened anew takes the root above in instead.
-/

namespace SvServer

namespace RootFiles

/-- A change of its files leaves the limits of a root as they are. -/
theorem Alters.limits {disk : Disk} {set after : RootFiles} (h : set.Alters disk after) :
    after.limits = set.limits := by
  cases h with
  | excludePath path =>
      rcases excludePath_cases set disk path with ⟨_, same⟩ | ⟨-, same⟩ | ⟨-, excluded, same⟩
      · rw [same]
      · rw [same]
      · rw [same]
        rfl
  | includePath path =>
      rcases includePath_cases set disk path with ⟨_, excluded, same⟩ | ⟨excluded, same⟩
      · rw [same]
      · rw [same]
        rfl
  | dropMissing path =>
      obtain ⟨files, after⟩ := dropMissing_fst set disk path
      rw [after]

/-- A root that is written in its normal form stays so. -/
theorem kept_normalize_root (disk : Disk) :
    Kept disk fun set => set.root.normalize = set.root where
  ofRoot root _ := root.normalize_normalize
  setExclusions _ _ _ kept := kept
  discover _ kept := kept
  withLimits _ _ kept := kept
  alters _ _ alters kept := by rw [alters.root, kept]

/-- **Under settings, what a walk finds depends on the root and its limits alone.** -/
theorem discover_setExclusions_congr {set other : RootFiles} (root : set.root = other.root)
    (limits : set.limits = other.limits) (disk : Disk) (base : Path) (entries : List String) :
    ((set.setExclusions disk base entries).discover disk).1 =
      ((other.setExclusions disk base entries).discover disk).1 := by
  obtain ⟨_, _, _, _⟩ := set
  obtain ⟨_, _, _, _⟩ := other
  subst root limits
  rfl

end RootFiles

namespace Project

variable {project fresh before after : Project} {disk : Disk} {entries : List String}
variable {root other : Path}

/-! ## What holds of the roots of every project -/

/-- The root at every place is written in its normal form. -/
theorem Reachable.normalize_root (h : project.Reachable) :
    project.Everywhere fun set => set.root.normalize = set.root :=
  h.everywhere RootFiles.kept_normalize_root

/-- All roots are walked within the same limits. -/
def SharesLimits (project : Project) : Prop :=
  project.Everywhere fun set => set.limits = project.principal.limits

theorem SharesLimits.alters (alters : Alters disk before after) (h : before.SharesLimits) :
    after.SharesLimits := by
  have mapped : ∀ {change : RootFiles → RootFiles},
      (∀ place, after.files? place = (before.files? place).map change) →
      (∀ set other : RootFiles, set.limits = other.limits →
        (change set).limits = (change other).limits) → after.SharesLimits := by
    intro change same alike place set found
    have principal : after.principal = change before.principal := Option.some.inj (same none)
    rw [same] at found
    obtain ⟨old, stored, rfl⟩ := Option.map_eq_some_iff.1 found
    rw [principal]
    exact alike _ _ (h place old stored)
  cases alters with
  | keeps same => exact mapped (fun place => by rw [same, Option.map_id']) fun _ _ alike => alike
  | excludes base entries same => exact mapped same fun _ _ alike => alike
  | walks same => exact mapped same fun _ _ alike => alike
  | limits limits same => exact mapped same fun _ _ _ => rfl
  | drops root =>
      intro place set found
      have principal : (before.dropImport root).1.principal = before.principal := by
        rw [dropImport]
        split <;> rfl
      rw [principal]
      exact h place set (files?_dropImport found)
  | @adds root normal =>
      rw [SharesLimits, principal_addImport, addImport]
      split
      · exact h
      · exact Everywhere.insert h root rfl
  | @puts path set alters =>
      have asked := h _ _ (files?_importAbove? path)
      have everywhere : (before.putFilesFor path set).Everywhere fun set =>
          set.limits = before.principal.limits := by
        intro place stored found
        rw [files?_putFilesFor] at found
        split at found
        · rw [← Option.some.inj found, alters.limits, asked]
        · exact h place stored found
      intro place stored found
      rw [everywhere place stored found, everywhere none _ rfl]

theorem sharesLimits_ofRoot (root : Path) (limits : DiscoveryLimits) :
    (ofRoot root limits).SharesLimits := by
  intro place set found
  cases place with
  | none => rw [← Option.some.inj found]
  | some other => simp [files?, ofRoot] at found

theorem Reachable.sharesLimits (h : project.Reachable) : project.SharesLimits :=
  h.keeps sharesLimits_ofRoot (fun _ _ _ => SharesLimits.alters) fun _ _ path _ shares =>
    Everywhere.insert shares path.normalize rfl

/-- What holds of the roots of a project besides where they lie: they are written in their normal
form, at the place of their spelling, and are walked within the same limits. -/
structure Regular (project : Project) : Prop where
  rooted : project.Rooted
  normal : project.Everywhere fun set => set.root.normalize = set.root
  limits : project.SharesLimits

theorem Reachable.regular (h : project.Reachable) : project.Regular :=
  ⟨h.consistent.toRooted, h.normalize_root, h.sharesLimits⟩

theorem regular_ofRoot (root : Path) (limits : DiscoveryLimits) : (ofRoot root limits).Regular :=
  ⟨(consistent_ofRoot root limits).toRooted, everywhere_ofRoot (RootFiles.kept_normalize_root default),
    sharesLimits_ofRoot root limits⟩

theorem Regular.importRoots (h : project.Regular) (disk : Disk) (entries : List String) :
    (project.importRoots disk entries).1.Regular where
  rooted := h.rooted.importRoots disk entries
  normal := h.normal.altered (RootFiles.kept_normalize_root disk)
    (altered_importRoots project disk entries)
  limits := kept_of_altered (fun _ _ => SharesLimits.alters)
    (altered_importRoots project disk entries) h.limits

/-- No import overlaps the principal root. -/
def ClearOfRoot (project : Project) : Prop :=
  ∀ root set, project.files? (some root) = some set → root.overlaps project.root = false

theorem ClearOfRoot.of_files? (h : before.ClearOfRoot) (moved : after.root = before.root)
    (fewer : ∀ root set, after.files? (some root) = some set →
      ∃ old, before.files? (some root) = some old) : after.ClearOfRoot := by
  intro root set found
  obtain ⟨old, stored⟩ := fewer root set found
  rw [moved]
  exact h root old stored

theorem ClearOfRoot.insert (h : project.ClearOfRoot) {set : RootFiles}
    (clear : root.overlaps project.root = false) :
    ClearOfRoot { project with imports := project.imports.insert root set } := by
  intro other stored found
  rw [files?_insert] at found
  split at found
  · rename_i same
    rw [← Path.overlaps_congr same]
    exact clear
  · exact h other stored found

theorem ClearOfRoot.alters (alters : Alters disk before after) (h : before.ClearOfRoot) :
    after.ClearOfRoot := by
  have moved := root_of_alters alters
  have mapped : ∀ {change : RootFiles → RootFiles},
      (∀ place, after.files? place = (before.files? place).map change) → after.ClearOfRoot := by
    intro change same
    refine h.of_files? moved fun root set found => ?_
    rw [same] at found
    obtain ⟨old, stored, -⟩ := Option.map_eq_some_iff.1 found
    exact ⟨old, stored⟩
  cases alters with
  | keeps same => exact mapped fun place => by rw [same, Option.map_id']
  | excludes base entries same => exact mapped same
  | walks same => exact mapped same
  | limits limits same => exact mapped same
  | drops root => exact h.of_files? moved fun _ set found => ⟨set, files?_dropImport found⟩
  | @adds root normal =>
      rw [addImport]
      split
      · exact h
      · rename_i free
        refine h.insert ?_
        rw [Bool.eq_false_iff]
        intro overlap
        have full := hasRoomFor_eq_false_iff.2 ⟨none, before.principal, rfl, overlap⟩
        simp_all [hasRoomFor]
  | puts path alters =>
      refine h.of_files? moved fun root set found => ?_
      rw [files?_putFilesFor] at found
      split at found
      · rename_i here
        exact ⟨before.filesFor path, by rw [← files?_congr before here, files?_importAbove?]⟩
      · exact ⟨set, found⟩

theorem Reachable.clearOfRoot (h : project.Reachable) : project.ClearOfRoot := by
  refine h.keeps (fun root limits other set found => ?_) (fun _ _ _ => ClearOfRoot.alters)
    fun project disk path reads clear => ?_
  · simp [files?, ofRoot] at found
  · exact clear.insert (overlaps_root_of_reads reads)

/-! ## Which roots are imported -/

/-- Whether a root is picked does not depend on how paths are spelled. -/
theorem picks_iff (project : Project) (wanted : PathSet) (root : Path) :
    project.Picks wanted.toList root ↔
      wanted.contains root = true ∧ project.hasRoomFor root = true ∧
        ∀ other : Path, wanted.contains other = true → project.hasRoomFor other = true →
          root.isUnder other = true → (other == root) = true := by
  constructor
  · rintro ⟨pick, listed, same, room, outermost⟩
    refine ⟨?_, ?_, fun other listed' room' beneath => ?_⟩
    · rw [← PathSet.contains_congr _ same]
      exact PathSet.contains_of_mem_toList listed
    · rw [← hasRoomFor_congr project same, room]
    · obtain ⟨spelled, listed', here⟩ := PathSet.exists_mem_toList listed'
      have one := outermost spelled listed' (by rw [← hasRoomFor_congr project here, room']) (by
        rw [← Path.isUnder_congr_above here, Path.isUnder_congr same, beneath])
      exact BEq.trans here (BEq.trans one same)
  · rintro ⟨listed, room, outermost⟩
    obtain ⟨pick, listed, same⟩ := PathSet.exists_mem_toList listed
    refine ⟨pick, listed, BEq.symm same, ?_, fun other listed' room' beneath => ?_⟩
    · rw [← hasRoomFor_congr project same, room]
    · have one := outermost other (PathSet.contains_of_mem_toList listed') room' (by
        rw [Path.isUnder_congr same, beneath])
      exact BEq.trans one same

/-- Once the imports that settings do not list are dropped, there is room for what overlaps neither
the principal root nor a listed import. -/
theorem hasRoomFor_dropUnwanted (h : project.Rooted) (disk : Disk) (entries : List String)
    (path : Path) : (project.dropUnwanted disk entries).1.hasRoomFor path = true ↔
      path.overlaps project.root = false ∧
        ∀ kept, project.imports.contains kept = true →
          (wantedImports disk entries).contains kept = true → path.overlaps kept = false := by
  rw [hasRoomFor_iff (h.dropUnwanted disk entries), Project.root, principal_dropUnwanted]
  simp only [contains_dropUnwanted, Bool.and_eq_true, and_imp, Project.root]

/-- Whether no import that settings keep lies beneath another root that they list, unless that one
overlaps the principal root and so cannot be imported. -/
def KeepsOutermost (project : Project) (disk : Disk) (entries : List String) : Prop :=
  ∀ kept other : Path, project.imports.contains kept = true →
    (wantedImports disk entries).contains kept = true →
    (wantedImports disk entries).contains other = true → other.overlaps project.root = false →
    kept.isUnder other = true → (other == kept) = true

/-- **What settings give a project without imports**: the outermost of the roots that they list, but
for those that overlap the principal root. -/
theorem contains_importRoots_of_empty (h : fresh.Rooted) (none : fresh.imports = ∅) (path : Path) :
    (fresh.importRoots disk entries).1.imports.contains path = true ↔
      (wantedImports disk entries).contains path = true ∧ path.overlaps fresh.root = false ∧
        ∀ other : Path, (wantedImports disk entries).contains other = true →
          other.overlaps fresh.root = false → path.isUnder other = true →
            (other == path) = true := by
  rw [contains_importRoots h, picks_iff]
  simp [none, hasRoomFor_dropUnwanted h]

/-- **When the imports there were make no difference**: settings give a project with imports the
roots that they give one without, exactly if each import that they keep is outermost. -/
theorem contains_importRoots_eq_iff (h : project.Rooted) (clear : project.ClearOfRoot)
    (h' : fresh.Rooted) (root : fresh.root = project.root) (none : fresh.imports = ∅) :
    (∀ path, (project.importRoots disk entries).1.imports.contains path =
      (fresh.importRoots disk entries).1.imports.contains path) ↔
      project.KeepsOutermost disk entries := by
  have kept : ∀ {path : Path}, project.imports.contains path = true →
      path.overlaps project.root = false := by
    intro path member
    obtain ⟨set, found⟩ := contains_imports_iff.1 member
    exact clear path set found
  have imported : ∀ path, (fresh.importRoots disk entries).1.imports.contains path = true ↔
      (wantedImports disk entries).contains path = true ∧ path.overlaps project.root = false ∧
        ∀ other : Path, (wantedImports disk entries).contains other = true →
          other.overlaps project.root = false → path.isUnder other = true →
            (other == path) = true := by
    rw [← root]
    exact contains_importRoots_of_empty h' none
  constructor
  · intro alike path other member listed listed' apart beneath
    have there := (contains_importRoots h disk entries path).2 (.inl ⟨member, listed⟩)
    rw [alike, imported] at there
    exact there.2.2 other listed' apart beneath
  · intro outermost path
    rw [Bool.eq_iff_iff, imported, contains_importRoots h, picks_iff, hasRoomFor_dropUnwanted h]
    simp only [hasRoomFor_dropUnwanted h]
    constructor
    · rintro (⟨member, listed⟩ | ⟨listed, ⟨apart, free⟩, above⟩)
      · exact ⟨listed, kept member, fun other => outermost path other member listed⟩
      · refine ⟨listed, apart, fun other listed' apart' beneath => ?_⟩
        refine above other listed' ⟨apart', fun import_ member stays => ?_⟩ beneath
        -- An import above or beneath the other root would overlap the path.
        rw [Bool.eq_false_iff]
        intro overlap
        refine Bool.false_ne_true ((free import_ member stays).symm.trans ?_)
        rcases Path.overlaps_iff.1 overlap with inside | around
        · exact Path.overlaps_iff.2 (.inl (Path.isUnder_trans beneath inside))
        · have one := outermost import_ other member stays listed' apart' around
          rw [Path.overlaps_iff, ← Path.isUnder_congr_above one]
          exact .inl beneath
    · rintro ⟨listed, apart, above⟩
      by_cases free : ∀ import_, project.imports.contains import_ = true →
          (wantedImports disk entries).contains import_ = true → path.overlaps import_ = false
      · exact .inr ⟨listed, ⟨apart, free⟩, fun other listed' room' =>
          above other listed' room'.1⟩
      · -- An import that overlaps the path is the path.
        simp only [not_forall, Bool.not_eq_false] at free
        obtain ⟨import_, member, stays, overlap⟩ := free
        have one : (import_ == path) = true := by
          rcases Path.overlaps_iff.1 overlap with inside | around
          · exact above import_ stays (kept member) inside
          · exact BEq.symm (outermost import_ path member stays listed apart around)
        refine .inl ⟨?_, listed⟩
        rw [← Std.ExtTreeMap.contains_congr (Path.compare_eq_of_beq one)]
        exact member

/-! ## Files -/

/-- Whether two projects have the same roots, each with the same files, exclusions and limits, the
same macros in the same order, and hide the same names. What waits and what was told may differ. -/
structure Agrees (a b : Project) : Prop where
  files : ∀ place, a.files? place = b.files? place
  macros : a.macros = b.macros
  hiddenNames : a.hiddenNames = b.hiddenNames

/-- The files of a root once settings were applied and it was walked. -/
def walked (base : Path) (disk : Disk) (settings : ProjectSettings) (set : RootFiles) : RootFiles :=
  ((set.setExclusions disk base settings.excludePaths).discover disk).1

theorem files?_rewalk (project : Project) (disk : Disk) (place : Option Path) :
    (project.rewalk disk).1.files? place =
      ((project.importRoots disk
        (ProjectSettings.readOrEmpty disk project.root).imports).1.files? place).map
          (walked project.root disk (ProjectSettings.readOrEmpty disk project.root)) := by
  rw [rewalk, applied, files?_discoverAll, files?_apply, Option.map_map]
  rfl

/-- Where the same roots are imported, the same files are found. -/
theorem files?_map_walked_eq {settings : ProjectSettings} (h : before.Regular)
    (h' : after.Regular) (principal : before.principal.root = after.principal.root)
    (limits : before.principal.limits = after.principal.limits)
    (imports : ∀ path, before.imports.contains path = after.imports.contains path)
    (base : Path) (place : Option Path) :
    (before.files? place).map (walked base disk settings) =
      (after.files? place).map (walked base disk settings) := by
  have pair : ∀ set other, before.files? place = some set → after.files? place = some other →
      (set.root == other.root) = true →
        walked base disk settings set = walked base disk settings other := by
    intro set other found found' same
    refine RootFiles.discover_setExclusions_congr ?_ ?_ disk base settings.excludePaths
    · have normal := h.normal place set found
      have normal' := h'.normal place other found'
      rw [← normal, ← normal']
      exact (Path.isPlain_normalize _).eq_of_beq (Path.isPlain_normalize _) (by
        rw [normal, normal', same])
    · rw [h.limits place set found, h'.limits place other found', limits]
  cases place with
  | none => exact congrArg some (pair _ _ rfl rfl (by rw [principal]; exact BEq.rfl))
  | some root =>
      have alike := imports root
      rw [Std.ExtTreeMap.contains_eq_isSome_getElem?, Std.ExtTreeMap.contains_eq_isSome_getElem?]
        at alike
      cases found : before.files? (some root) with
      | none =>
          have absent : after.imports[root]? = none := by
            rw [← Option.not_isSome_iff_eq_none, ← alike, show before.imports[root]? = none from found]
            exact Bool.false_ne_true
          rw [show after.files? (some root) = none from absent]
      | some set =>
          rw [show before.imports[root]? = some set from found] at alike
          obtain ⟨other, found'⟩ := Option.isSome_iff_exists.1 alike.symm
          rw [show after.files? (some root) = some other from found']
          have same := BEq.trans (h.rooted.keys root set found)
            (BEq.symm (h'.rooted.keys root other found'))
          exact congrArg some (pair set other found found' same)

/-- What stands on its own after a walk is not changed by what is taken in. -/
theorem agrees_finish (project : Project) (delta : FileChanges) (all : Bool) :
    ((project.takeIn delta).1.finish all).Agrees project where
  files place := by rw [files?_finish, files?_takeIn]
  macros := by cases all <;> rfl
  hiddenNames := by cases all <;> rfl

theorem Agrees.symm (h : before.Agrees after) : after.Agrees before :=
  ⟨fun place => (h.files place).symm, h.macros.symm, h.hiddenNames.symm⟩

theorem Agrees.trans (h : before.Agrees after) (h' : after.Agrees fresh) : before.Agrees fresh :=
  ⟨fun place => (h.files place).trans (h'.files place), h.macros.trans h'.macros,
    h.hiddenNames.trans h'.hiddenNames⟩

/-! ## Reloading -/

/-- **What opening a root comes to**: it is refused if there is no folder, and otherwise the root is
walked under the settings in it. -/
theorem openRoot_eq (disk : Disk) {root : Path} (normal : root.normalize = root)
    (limits : DiscoveryLimits) : openRoot disk root limits =
      if disk.isFolder root then
        .ok (((((ofRoot root limits).rewalk disk).1.takeIn
            ((ofRoot root limits).rewalk disk).2).1.finish true),
          (((ofRoot root limits).rewalk disk).1.takeIn ((ofRoot root limits).rewalk disk).2).2)
      else .error (.notFound root) := by
  have same : (ofRoot root limits).root = root := normal
  rw [openRoot, normal, rewalk, applied, same]
  cases disk.isFolder root with
  | false => rfl
  | true =>
      dsimp only [Bool.not_true]
      generalize (ofRoot root limits).apply disk _ = applied
      rcases applied.project.discoverAll disk with ⟨walked, delta⟩
      rfl

/-- **When it makes no difference what a project was before** its roots are walked under the settings
on the disk. -/
theorem rewalk_agrees_iff (h : project.Reachable) (disk : Disk) :
    (project.rewalk disk).1.Agrees
        ((ofRoot project.root project.principal.limits).rewalk disk).1 ↔
      project.KeepsOutermost disk (ProjectSettings.readOrEmpty disk project.root).imports := by
  have normal : project.root.normalize = project.root := h.normalize_root none _ rfl
  have root : (ofRoot project.root project.principal.limits).root = project.root := normal
  have fresh := (consistent_ofRoot project.root project.principal.limits).toRooted
  rw [← contains_importRoots_eq_iff h.consistent.toRooted h.clearOfRoot fresh root rfl]
  constructor
  · intro agrees path
    have files := congrArg Option.isSome (agrees.files (some path))
    rw [files?_rewalk, files?_rewalk, root, Option.isSome_map, Option.isSome_map] at files
    rw [Std.ExtTreeMap.contains_eq_isSome_getElem?, Std.ExtTreeMap.contains_eq_isSome_getElem?]
    exact files
  · intro imports
    constructor
    · intro place
      rw [files?_rewalk, files?_rewalk, root]
      refine files?_map_walked_eq (h.regular.importRoots disk _)
        ((regular_ofRoot project.root project.principal.limits).importRoots disk _)
        ?_ ?_ imports project.root place
      · rw [principal_importRoots, principal_importRoots]
        exact normal.symm
      · rw [principal_importRoots, principal_importRoots]
        rfl
    · rw [macros_of_beside (beside_rewalk _ disk), macros_of_beside (beside_rewalk _ disk), applied,
        applied, root]
      rfl
    · rw [hiddenNames_of_beside (beside_rewalk _ disk), hiddenNames_of_beside (beside_rewalk _ disk),
        applied, applied, root]
      rfl

/-- **When reloading is the same as reopening**: the root is still a folder, and no import that the
settings keep lies beneath another root that they list. -/
theorem reload_agrees_iff (h : project.Reachable) (disk : Disk) :
    (∃ reopened followUp,
      openRoot disk project.root project.principal.limits = .ok (reopened, followUp) ∧
        (project.reload disk).1.Agrees reopened) ↔
      disk.isFolder project.root = true ∧
        project.KeepsOutermost disk (ProjectSettings.readOrEmpty disk project.root).imports := by
  have normal : project.root.normalize = project.root := h.normalize_root none _ rfl
  rw [openRoot_eq disk normal, reload_eq, ← rewalk_agrees_iff h disk]
  constructor
  · rintro ⟨reopened, followUp, opens, agrees⟩
    split at opens
    · rename_i folder
      obtain ⟨rfl, -⟩ := Prod.mk.inj (Except.ok.inj opens)
      exact ⟨folder, (agrees_finish _ _ _).symm.trans (agrees.trans (agrees_finish _ _ _))⟩
    · cases opens
  · rintro ⟨folder, agrees⟩
    refine ⟨_, _, if_pos folder, ?_⟩
    exact (agrees_finish _ _ _).trans (agrees.trans (agrees_finish _ _ _).symm)

/-- The project of the library once another tool has written settings that import a folder of it. -/
def subProject : Project := (libraryProject.perform importingDisk .reload).1

theorem reachable_subProject : subProject.Reachable :=
  .performed importingDisk .reload (.opened opens_libraryProject)

/-- The disk once the settings list the library as well. -/
def listingDisk : Disk :=
  libraryDisk (.file ".hdl-project"
    ⟨some "\x7b\"imports\": [\"/lib\", \"/lib/sub\"]\x7d", 33, 2⟩ .empty)

/-- When reloading this project is reopening it. -/
theorem reload_agrees_subProject : subProject.Reachable ∧
    ((∃ reopened followUp,
      openRoot listingDisk subProject.root subProject.principal.limits = .ok (reopened, followUp) ∧
        (subProject.reload listingDisk).1.Agrees reopened) ↔
      listingDisk.isFolder subProject.root = true ∧
        subProject.KeepsOutermost listingDisk
          (ProjectSettings.readOrEmpty listingDisk subProject.root).imports) :=
  ⟨reachable_subProject, reload_agrees_iff reachable_subProject listingDisk⟩

/-- **A folder of the library stays imported where the library would be**: the settings list both,
and the project has had the folder before. -/
theorem not_reload_agrees_subProject : subProject.Reachable ∧
    ¬∃ reopened followUp,
      openRoot listingDisk subProject.root subProject.principal.limits = .ok (reopened, followUp) ∧
        (subProject.reload listingDisk).1.Agrees reopened := by
  refine ⟨reachable_subProject, ?_⟩
  rintro ⟨reopened, followUp, opens, agrees⟩
  have kept : ((subProject.reload listingDisk).1.files? (some (.ofString "/lib"))).isSome = false := by
    decide +kernel
  have taken : (openRoot listingDisk subProject.root
      subProject.principal.limits).toOption.any (fun opened =>
        (opened.1.files? (some (.ofString "/lib"))).isSome) = true := by
    decide +kernel
  rw [opens] at taken
  rw [agrees.files] at kept
  exact Bool.false_ne_true (kept.symm.trans taken)

end Project

end SvServer
