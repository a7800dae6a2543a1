import SvServer.Proofs.MacroTable
import SvServer.Proofs.Project.Carrying

/-!
# What reading the settings again comes to

Most operations begin by reading the settings file again. If the settings move roots or exclusions
all roots are walked, and the walk may meet a limit; if they define a macro otherwise or hide other
names, every included file waits. Macros count as others only when some name is defined otherwise,
not when they merely stand in another order.
-/

namespace SvServer

namespace FileChanges

/-- A merged change met a limit if one of the two did. -/
theorem isSome_limitHit_merge (earlier later : FileChanges) :
    (earlier.merge later).limitHit.isSome =
      (earlier.limitHit.isSome || later.limitHit.isSome) := by
  rw [merge]
  cases earlier.limitHit <;> cases later.limitHit <;> rfl

end FileChanges

namespace RootFiles

/-- Whether a walk of the root, as it is on the disk, meets a limit. -/
def meetsLimit (set : RootFiles) (disk : Disk) : Bool :=
  (disk.discover set.root ⟨set.excluded.toList, set.limits⟩).limitHit.isSome

/-- A walk reports the limit that it meets, and would meet it again. -/
theorem isSome_limitHit_discover (set : RootFiles) (disk : Disk) :
    (set.discover disk).2.limitHit.isSome = (set.discover disk).1.meetsLimit disk := rfl

/-- An accepted exclusion walks the root, unless the path was excluded before. -/
theorem limitHit_excludePath {set after : RootFiles} {disk : Disk} {path : Path}
    {delta : FileChanges} (accepted : set.excludePath disk path = (after, .ok delta)) :
    delta.limitHit.isSome = (!set.isExcluded path.normalize && after.meetsLimit disk) := by
  rcases excludePath_cases set disk path with
    ⟨error, refused⟩ | ⟨excluded, already⟩ | ⟨new, excluded, walked⟩
  · rw [refused] at accepted
    cases (Prod.mk.inj accepted).2
  · rw [already] at accepted
    rw [excluded, ← Except.ok.inj (Prod.mk.inj accepted).2]
    rfl
  · rw [walked] at accepted
    rw [new, ← (Prod.mk.inj accepted).1, ← Except.ok.inj (Prod.mk.inj accepted).2,
      isSome_limitHit_discover]
    rfl

/-- An accepted inclusion walks the root. -/
theorem limitHit_includePath {set after : RootFiles} {disk : Disk} {path : Path}
    {delta : FileChanges} (accepted : set.includePath disk path = (after, .ok delta)) :
    delta.limitHit.isSome = after.meetsLimit disk := by
  rcases includePath_cases set disk path with ⟨error, excluded, refused⟩ | ⟨excluded, walked⟩
  · rw [refused] at accepted
    cases (Prod.mk.inj accepted).2
  · rw [walked] at accepted
    rw [← (Prod.mk.inj accepted).1, ← Except.ok.inj (Prod.mk.inj accepted).2,
      isSome_limitHit_discover]

end RootFiles

namespace Project

variable {before between after project : Project} {earlier later delta : FileChanges}
variable {disk : Disk}

/-! ## Limits -/

/-- Whether some root meets a limit when it is walked. -/
def MeetsLimit (project : Project) (disk : Disk) : Prop :=
  ∃ set ∈ project.rootFiles, set.meetsLimit disk = true

theorem isSome_limitHit_foldl (disk : Disk) (entries : List (Path × RootFiles))
    (state : Project × FileChanges) :
    (entries.foldl (walkImport disk) state).2.limitHit.isSome =
      (state.2.limitHit.isSome || entries.any fun entry => entry.2.meetsLimit disk) := by
  induction entries generalizing state with
  | nil => simp
  | cons first rest ih =>
      rw [List.foldl_cons, ih, List.any_cons, walkImport, FileChanges.isSome_limitHit_merge,
        Bool.or_assoc]
      rfl

/-- A walk of all roots reports a limit if one of them meets one. -/
theorem limitHit_discoverAll (project : Project) (disk : Disk) :
    (project.discoverAll disk).2.limitHit.isSome = true ↔
      (project.discoverAll disk).1.MeetsLimit disk := by
  have before : (project.discoverAll disk).2.limitHit.isSome = true ↔
      project.MeetsLimit disk := by
    rw [discoverAll_eq, isSome_limitHit_foldl, MeetsLimit, rootFiles,
      PathMap.values_eq_map_toList, ← List.any_eq_true, List.any_cons, List.any_map]
    rfl
  rw [before, MeetsLimit, MeetsLimit]
  simp only [mem_rootFiles_iff, files?_discoverAll]
  constructor
  · rintro ⟨set, ⟨place, found⟩, meets⟩
    exact ⟨(set.discover disk).1, ⟨place, by rw [found]; rfl⟩, meets⟩
  · rintro ⟨set, ⟨place, found⟩, meets⟩
    obtain ⟨old, stored, rfl⟩ := Option.map_eq_some_iff.1 found
    exact ⟨old, ⟨place, stored⟩, meets⟩

theorem limitHit_dropImport (project : Project) (root : Path) :
    (project.dropImport root).2.limitHit = none := by
  rw [dropImport]
  split <;> rfl

/-- Applying settings walks nothing. -/
theorem limitHit_apply (project : Project) (disk : Disk) (settings : ProjectSettings) :
    (project.apply disk settings).delta.limitHit = none := by
  refine List.foldlRecOn (motive := fun state : Project × FileChanges =>
    state.2.limitHit = none) (project.imports.keys.filter fun root =>
      !(wantedImports disk settings.imports).contains root) dropStep rfl ?_
  intro state none root _
  show ((state.1.dropImport root).2.limitHit.or state.2.limitHit) = _
  rw [limitHit_dropImport, none]
  rfl

theorem limitHit_rewalk (project : Project) (disk : Disk) :
    (project.rewalk disk).2.limitHit.isSome = true ↔ (project.rewalk disk).1.MeetsLimit disk := by
  rw [rewalk, applied]
  dsimp only
  rw [FileChanges.isSome_limitHit_merge, limitHit_apply, Option.isSome_none, Bool.false_or,
    limitHit_discoverAll]

/-- Whether the settings on the disk move roots or exclusions. -/
def Rescans (project : Project) (disk : Disk) : Prop :=
  ∃ stored, ProjectSettings.read disk project.root = .ok (some stored) ∧
    ((project.apply disk stored).project.scope == project.scope) = false

/-- Reading the settings again reports a limit if it walks the roots and one of them meets one. -/
theorem limitHit_refresh (project : Project) (disk : Disk) :
    (project.refresh disk).delta.limitHit.isSome = true ↔
      project.Rescans disk ∧ (project.refresh disk).project.MeetsLimit disk := by
  rw [Rescans]
  simp only [← scope_marked]
  rcases refresh_cases project disk with
    ⟨unread, nothing⟩ | ⟨stored, read, ⟨still, kept⟩ | ⟨moved, walked⟩⟩
  · rw [nothing]
    refine ⟨fun limit => absurd limit (by simp [FileChanges.empty]), ?_⟩
    rintro ⟨⟨stored, read, -⟩, -⟩
    exact absurd read (unread stored)
  · rw [kept]
    constructor
    · intro limit
      rw [limitHit_apply] at limit
      exact absurd limit (by decide)
    · rintro ⟨⟨other, read', moved⟩, -⟩
      rw [read] at read'
      rw [← Option.some.inj (Except.ok.inj read'), still] at moved
      exact absurd moved (by decide)
  · rw [walked]
    rw [FileChanges.isSome_limitHit_merge, limitHit_apply, Option.isSome_none, Bool.false_or,
      limitHit_discoverAll]
    exact ⟨fun meets => ⟨⟨stored, read, moved⟩, meets⟩, fun h => h.2⟩

/-! ## Macros and hidden names -/

/-- What a project has beside its files and what waits. -/
def beside (project : Project) : MacroTable × Std.ExtTreeSet String compare × Bool :=
  (project.macros, project.hiddenNames, project.limitWarned)

theorem macros_of_beside (same : after.beside = before.beside) : after.macros = before.macros :=
  congrArg (·.1) same

theorem hiddenNames_of_beside (same : after.beside = before.beside) :
    after.hiddenNames = before.hiddenNames :=
  congrArg (·.2.1) same

theorem limitWarned_of_beside (same : after.beside = before.beside) :
    after.limitWarned = before.limitWarned :=
  congrArg (·.2.2) same

/-- Whether macros are defined otherwise or other names are hidden, so that all files may be shown
something else. -/
def Resettles (before after : Project) : Prop :=
  (∃ name, after.macros.get? name ≠ before.macros.get? name) ∨
    after.hiddenNames ≠ before.hiddenNames

theorem not_resettles_of_beside (same : after.beside = before.beside) :
    ¬before.Resettles after := by
  rintro (⟨name, other⟩ | other)
  · exact other (by rw [macros_of_beside same])
  · exact other (hiddenNames_of_beside same)

theorem Resettles.of_beside (h : before.Resettles after) (same : after.beside = between.beside) :
    before.Resettles between := by
  rwa [Resettles, macros_of_beside same, hiddenNames_of_beside same] at h

theorem beside_discoverAll (project : Project) (disk : Disk) :
    (project.discoverAll disk).1.beside = project.beside := by
  rw [discoverAll_eq]
  exact List.foldlRecOn (motive := fun state : Project × FileChanges =>
    state.1.beside = project.beside) project.imports.toList _ rfl fun _ h _ _ => h

theorem beside_rewalk (project : Project) (disk : Disk) :
    (project.rewalk disk).1.beside = (project.applied disk).project.beside := by
  rw [rewalk]
  dsimp only
  rw [beside_discoverAll]

theorem beside_putFilesFor (project : Project) (path : Path) (set : RootFiles) :
    (project.putFilesFor path set).beside = project.beside := by
  rw [putFilesFor]
  split <;> rfl

theorem beside_dropImport (project : Project) (root : Path) :
    (project.dropImport root).1.beside = project.beside := by
  rw [dropImport]
  split <;> rfl

/-- Imports come and go without the limits that were told. -/
theorem limitWarned_apply (project : Project) (disk : Disk) (settings : ProjectSettings) :
    (project.apply disk settings).project.limitWarned = project.limitWarned := by
  refine importRoots_induction (fun between => between.limitWarned = project.limitWarned)
    project disk settings.imports rfl ?_ ?_
  · intro between root _ known
    rw [dropImport]
    split <;> exact known
  · intro between root _ known
    rw [addImport]
    split <;> exact known

theorem macros_apply (project : Project) (disk : Disk) (settings : ProjectSettings) :
    (project.apply disk settings).project.macros = .ofList settings.macros := rfl

theorem beside_marked (project : Project) (disk : Disk) (settings : ProjectSettings) :
    (project.marked disk settings).beside = (project.apply disk settings).project.beside := by
  rw [marked]
  split <;> rfl

/-- Settings count as changed when they define a macro otherwise or hide other names. -/
theorem settingsChanged_of_resettles (names : project.macros.names.Nodup)
    {settings : ProjectSettings}
    (h : project.Resettles (project.apply disk settings).project) :
    (project.apply disk settings).settingsChanged = true := by
  show (!project.macros.agreesWith (.ofList settings.macros) ||
    project.hiddenNames != .ofList settings.hiddenNames compare) = true
  rw [Bool.or_eq_true, Bool.not_eq_true', bne_iff_ne]
  rcases h with ⟨name, other⟩ | other
  · refine .inl ?_
    rw [Bool.eq_false_iff]
    intro agree
    exact other (MacroTable.get?_eq_of_agreesWith names agree name).symm
  · exact .inr fun alike => other alike.symm

/-! ## What waits -/

/-- Every included file waits or is reported. -/
def Awaits (after : Project) (delta : FileChanges) : Prop :=
  ∀ file, after.includes file = true →
    after.waiting.contains file = true ∨ delta.reports file = true

theorem awaits_addAllWaiting (project : Project) (delta : FileChanges) :
    project.addAllWaiting.Awaits delta := fun _ included => .inl (waiting_addAllWaiting included)

theorem Awaits.trans (h : between.Awaits earlier) (h' : between.Reports after later) :
    after.Awaits (earlier.merge later) := by
  intro file included
  rw [FileChanges.reports_merge, Bool.or_eq_true]
  rcases h'.included file included with before | waits | reported
  · rcases h file before with waits | reported
    · exact .inl (h'.waiting file waits)
    · exact .inr (.inl reported)
  · exact .inl waits
  · exact .inr (.inr reported)

theorem Awaits.of_same (h : between.Awaits delta) (waiting : after.waiting = between.waiting)
    (same : ∀ file, after.includes file = between.includes file) : after.Awaits delta := by
  intro file included
  rw [waiting]
  exact h file (by rw [← same, included])

/-- **Settings that define a macro otherwise or hide other names make every file wait.** -/
theorem awaits_refresh (names : project.macros.names.Nodup)
    (h : project.Resettles (project.refresh disk).project) :
    (project.refresh disk).project.Awaits (project.refresh disk).delta := by
  rcases refresh_cases project disk with ⟨-, nothing⟩ | ⟨stored, -, ⟨-, kept⟩ | ⟨-, walked⟩⟩
  · rw [nothing] at h
    exact absurd h (not_resettles_of_beside rfl)
  · rw [kept] at h ⊢
    have resettled := h.of_beside (beside_marked project disk stored)
    rw [marked, if_pos (settingsChanged_of_resettles names resettled)]
    exact awaits_addAllWaiting _ _
  · rw [walked] at h ⊢
    have resettled := h.of_beside
      ((beside_discoverAll _ disk).trans (beside_marked project disk stored))
    refine Awaits.trans ?_ (carries_discoverAll _ disk).toReports
    rw [marked, if_pos (settingsChanged_of_resettles names resettled)]
    exact awaits_addAllWaiting _ _

/-- Macros, hidden names and told limits are as they were, or as the settings give them. -/
theorem beside_refresh (project : Project) (disk : Disk) :
    (project.refresh disk).project.beside = project.beside ∨
      ∃ stored, (project.refresh disk).project.beside =
        (project.apply disk stored).project.beside := by
  rcases refresh_cases project disk with ⟨-, nothing⟩ | ⟨stored, -, ⟨-, kept⟩ | ⟨-, walked⟩⟩
  · rw [nothing]
    exact .inl rfl
  · rw [kept]
    exact .inr ⟨stored, beside_marked project disk stored⟩
  · rw [walked]
    exact .inr ⟨stored, (beside_discoverAll _ disk).trans (beside_marked project disk stored)⟩

theorem limitWarned_refresh (project : Project) (disk : Disk) :
    (project.refresh disk).project.limitWarned = project.limitWarned := by
  rcases beside_refresh project disk with same | ⟨stored, same⟩
  · exact limitWarned_of_beside same
  · rw [limitWarned_of_beside same, limitWarned_apply]

theorem nodup_names_refresh (names : project.macros.names.Nodup) (disk : Disk) :
    (project.refresh disk).project.macros.names.Nodup := by
  rcases beside_refresh project disk with same | ⟨stored, same⟩
  · rwa [macros_of_beside same]
  · rw [macros_of_beside same, macros_apply]
    exact MacroTable.nodup_names_ofList stored.macros

end Project

end SvServer
