import SvServer.Proofs.Project.Refreshing

/-!
# What an operation reports and leaves waiting

Every operation but two begins by reading the settings again, so even one that is refused may move
files. What it moves is taken in either way: no file that waited is forgotten, and every file that
came or went waits, or all do if macros or hidden names are others now. What it hands over is
another matter. An operation that hands something over tells of every file to be cleared and of a
first limit; one that hands nothing over drops what reading the settings came to.
-/

namespace SvServer.Project

/-! ## Walks of an operation -/

/-- The walks that an operation makes: the files of the roots, as they are after each walk. -/
inductive Walks (project : Project) (disk : Disk) : Operation → RootFiles → Prop
  /-- The settings that an operation begins with move roots or exclusions. -/
  | settings {operation : Operation} {set : RootFiles} (reads : project.reads disk operation = true)
      (moved : project.Rescans disk) (walked : set ∈ (project.refresh disk).project.rootFiles) :
      Walks project disk operation set
  | excludePath {path : Path} {set : RootFiles} {delta : FileChanges}
      (new : ((project.refresh disk).project.filesFor path).isExcluded path.normalize = false)
      (walked : ((project.refresh disk).project.filesFor path).excludePath disk path =
        (set, .ok delta)) : Walks project disk (.excludePath path) set
  | includePath {path : Path} {set : RootFiles} {delta : FileChanges}
      (walked : ((project.refresh disk).project.filesFor path).includePath disk path =
        (set, .ok delta)) : Walks project disk (.includePath path) set
  | addRoot {path : Path} (reads : project.reads disk (.addRoot path) = true) :
      Walks project disk (.addRoot path)
        (.ofRoot path.normalize (project.refresh disk).project.principal.limits)
  | reload {set : RootFiles} (walked : set ∈ (project.reload disk).1.rootFiles) :
      Walks project disk .reload set
  | discover {limits : DiscoveryLimits} {set : RootFiles}
      (walked : set ∈ (project.discover disk limits).1.rootFiles) :
      Walks project disk (.discover limits) set

/-- Whether a walk of an operation meets a limit. -/
def HitsLimit (project : Project) (disk : Disk) (operation : Operation) : Prop :=
  ∃ set, project.Walks disk operation set ∧ set.meetsLimit disk = true

variable {project moved : Project} {disk : Disk} {operation : Operation} {delta : FileChanges}

/-- What the settings come to is part of what an operation comes to that reads them. -/
theorem hitsLimit_of_refresh (reads : project.reads disk operation = true)
    (limit : (project.refresh disk).delta.limitHit.isSome = true) :
    project.HitsLimit disk operation := by
  obtain ⟨moved, set, walked, meets⟩ := (limitHit_refresh project disk).1 limit
  exact ⟨set, .settings reads moved walked, meets⟩

/-- A limit met in a walk that the settings call for. -/
theorem limitHit_refresh_of_walk (moved : project.Rescans disk) {set : RootFiles}
    (walked : set ∈ (project.refresh disk).project.rootFiles)
    (meets : set.meetsLimit disk = true) :
    (project.refresh disk).delta.limitHit.isSome = true :=
  (limitHit_refresh project disk).2 ⟨moved, set, walked, meets⟩

theorem hitsLimit_excludePath (path : Path) : project.HitsLimit disk (.excludePath path) ↔
    (project.refresh disk).delta.limitHit.isSome = true ∨
      ∃ set delta, ((project.refresh disk).project.filesFor path).excludePath disk path =
        (set, .ok delta) ∧ delta.limitHit.isSome = true := by
  constructor
  · rintro ⟨set, walks, meets⟩
    cases walks with
    | settings _ moved walked => exact .inl (limitHit_refresh_of_walk moved walked meets)
    | excludePath new walked =>
        refine .inr ⟨set, _, walked, ?_⟩
        rw [RootFiles.limitHit_excludePath walked, new, meets]
        rfl
  · rintro (limit | ⟨set, delta, walked, limit⟩)
    · exact hitsLimit_of_refresh rfl limit
    · rw [RootFiles.limitHit_excludePath walked, Bool.and_eq_true, Bool.not_eq_true'] at limit
      exact ⟨set, .excludePath limit.1 walked, limit.2⟩

theorem hitsLimit_includePath (path : Path) : project.HitsLimit disk (.includePath path) ↔
    (project.refresh disk).delta.limitHit.isSome = true ∨
      ∃ set delta, ((project.refresh disk).project.filesFor path).includePath disk path =
        (set, .ok delta) ∧ delta.limitHit.isSome = true := by
  constructor
  · rintro ⟨set, walks, meets⟩
    cases walks with
    | settings _ moved walked => exact .inl (limitHit_refresh_of_walk moved walked meets)
    | includePath walked =>
        exact .inr ⟨set, _, walked, (RootFiles.limitHit_includePath walked).trans meets⟩
  · rintro (limit | ⟨set, delta, walked, limit⟩)
    · exact hitsLimit_of_refresh rfl limit
    · exact ⟨set, .includePath walked, (RootFiles.limitHit_includePath walked).symm.trans limit⟩

/-- An operation that reads the settings and makes no walk of its own. -/
theorem hitsLimit_of_settings (reads : project.reads disk operation = true)
    (only : ∀ set, project.Walks disk operation set →
      project.Rescans disk ∧ set ∈ (project.refresh disk).project.rootFiles) :
    project.HitsLimit disk operation ↔
      (project.refresh disk).delta.limitHit.isSome = true := by
  refine ⟨?_, hitsLimit_of_refresh reads⟩
  rintro ⟨set, walks, meets⟩
  obtain ⟨moved, walked⟩ := only set walks
  exact limitHit_refresh_of_walk moved walked meets

/-- An operation that makes no walks but those of all roots. -/
theorem hitsLimit_iff_meetsLimit {walked : Project}
    (walks : ∀ set, project.Walks disk operation set ↔ set ∈ walked.rootFiles) :
    project.HitsLimit disk operation ↔ walked.MeetsLimit disk := by
  simp only [HitsLimit, MeetsLimit, walks]

/-! ## What an operation comes to -/

/-- How an operation moves a project before its report is taken in. -/
structure Changes (before : Project) (disk : Disk) (operation : Operation) (moved : Project)
    (delta : FileChanges) (all : Bool) : Prop extends Reports before moved delta where
  lost : ∀ file, before.includes file = true →
    moved.includes file = true ∨ delta.nowExcluded.contains file = true
  names : moved.macros.names.Nodup
  limitWarned : moved.limitWarned = before.limitWarned
  awaits : before.Resettles moved → all = true ∨ moved.Awaits delta
  limit : delta.limitHit.isSome = true ↔ before.HitsLimit disk operation

/-- What an operation comes to, project and follow-up. -/
inductive Comes (project : Project) (disk : Disk) (operation : Operation) :
    Project × Option FollowUp → Prop
  /-- It is refused before the settings are read. -/
  | refused (unread : project.reads disk operation = false)
      (unwalked : ¬project.HitsLimit disk operation) : Comes project disk operation (project, none)
  | told {moved : Project} {delta : FileChanges} {all : Bool}
      (changes : project.Changes disk operation moved delta all) :
      Comes project disk operation
        ((moved.takeIn delta).1.finish all, some (moved.takeIn delta).2)
  /-- It is refused, or made to say nothing, after the settings were read. -/
  | untold {moved : Project} {all : Bool} (reads : project.reads disk operation = true)
      (changes : project.Changes disk operation moved (project.refresh disk).delta all)
      (same : ∀ file, moved.includes file = (project.refresh disk).project.includes file) :
      Comes project disk operation
        ((moved.takeIn (project.refresh disk).delta).1.finish all, none)

/-- What follows on the reading of the settings. -/
theorem changes_of_reports (names : project.macros.names.Nodup)
    (reports : (project.refresh disk).project.Reports moved delta)
    (lost : ∀ file, project.includes file = true → moved.includes file = true ∨
      ((project.refresh disk).delta.merge delta).nowExcluded.contains file = true)
    (beside : moved.beside = (project.refresh disk).project.beside)
    (limit : project.HitsLimit disk operation ↔
      (project.refresh disk).delta.limitHit.isSome = true ∨ delta.limitHit.isSome = true) :
    project.Changes disk operation moved ((project.refresh disk).delta.merge delta) false := by
  refine ⟨(carries_refresh project disk).toReports.trans reports, lost, ?_, ?_,
    fun resettled => .inr ?_, ?_⟩
  · rw [macros_of_beside beside]
    exact nodup_names_refresh names disk
  · exact (limitWarned_of_beside beside).trans (limitWarned_refresh project disk)
  · exact (awaits_refresh names (resettled.of_beside beside)).trans reports
  · rw [FileChanges.isSome_limitHit_merge, Bool.or_eq_true, limit]

/-- A change that carries its report follows on the reading of the settings. -/
theorem changes_of_carries (names : project.macros.names.Nodup)
    (carries : (project.refresh disk).project.Carries moved delta)
    (beside : moved.beside = (project.refresh disk).project.beside)
    (limit : project.HitsLimit disk operation ↔
      (project.refresh disk).delta.limitHit.isSome = true ∨ delta.limitHit.isSome = true) :
    project.Changes disk operation moved ((project.refresh disk).delta.merge delta) false :=
  changes_of_reports names carries.toReports ((carries_refresh project disk).trans carries).lost
    beside limit

/-- After the settings were read no file changes its status. -/
theorem changes_of_same (names : project.macros.names.Nodup)
    (waiting : moved.waiting = (project.refresh disk).project.waiting)
    (same : ∀ file, moved.includes file = (project.refresh disk).project.includes file)
    (beside : moved.beside = (project.refresh disk).project.beside)
    (limit : project.HitsLimit disk operation ↔
      (project.refresh disk).delta.limitHit.isSome = true) :
    project.Changes disk operation moved (project.refresh disk).delta false := by
  have whole := (carries_refresh project disk).trans_same waiting same
  refine ⟨whole.toReports, whole.lost, ?_, ?_, fun resettled => .inr ?_, limit.symm⟩
  · rw [macros_of_beside beside]
    exact nodup_names_refresh names disk
  · exact (limitWarned_of_beside beside).trans (limitWarned_refresh project disk)
  · exact (awaits_refresh names (resettled.of_beside beside)).of_same waiting same

/-! ## Operation by operation -/

/-- A change of the files of one root. -/
theorem comes_changeFiles (names : project.macros.names.Nodup) {path : Path}
    {change : RootFiles → RootFiles × Except ProjectError FileChanges}
    (answers : ∀ set : RootFiles, set.Answers (change set))
    (reads : project.reads disk operation = true)
    (limit : project.HitsLimit disk operation ↔
      (project.refresh disk).delta.limitHit.isSome = true ∨
        ∃ set delta, change ((project.refresh disk).project.filesFor path) = (set, .ok delta) ∧
          delta.limitHit.isSome = true) :
    project.Comes disk operation ((project.changeFiles disk path change).project,
      (project.changeFiles disk path change).followUp.toOption) := by
  obtain ⟨set, ⟨delta, known, carries, accepted⟩ | ⟨error, known, same, refused⟩⟩ :=
    changeFiles_cases project disk path answers
  · rw [accepted]
    refine .told (changes_of_carries names carries (beside_putFilesFor _ path set) ?_)
    rw [limit, known]
    refine or_congr_right ⟨?_, fun limit => ⟨set, delta, rfl, limit⟩⟩
    rintro ⟨_, other, same, limit⟩
    rwa [Except.ok.inj (Prod.mk.inj same).2]
  · rw [refused]
    refine .untold reads (changes_of_same names (waiting_putFilesFor _ path set) same
      (beside_putFilesFor _ path set) ?_) same
    rw [limit, known]
    refine ⟨fun either => either.resolve_right ?_, .inl⟩
    rintro ⟨_, _, same, -⟩
    cases (Prod.mk.inj same).2

theorem comes_excludePath (names : project.macros.names.Nodup) (disk : Disk) (path : Path) :
    project.Comes disk (.excludePath path) (project.perform disk (.excludePath path)) :=
  comes_changeFiles names (fun set => set.answers_excludePath disk path) rfl
    (hitsLimit_excludePath path)

theorem comes_includePath (names : project.macros.names.Nodup) (disk : Disk) (path : Path) :
    project.Comes disk (.includePath path) (project.perform disk (.includePath path)) :=
  comes_changeFiles names (fun set => set.answers_includePath disk path) rfl
    (hitsLimit_includePath path)

/-- A root that may be added shares no file with the roots there are. -/
theorem apart_of_reads (rooted : project.Rooted) {path : Path}
    (reads : project.reads disk (.addRoot path) = true) {file : Path}
    (included : project.includes file = true) : file.isUnder path.normalize = false := by
  simp only [Project.reads, Bool.and_eq_true, Bool.not_eq_true', covers, hasRootUnder,
    List.any_eq_false] at reads
  obtain ⟨⟨⟨-, outside⟩, around⟩, -⟩ := reads
  obtain ⟨place, set, found, included⟩ := includes_iff_files?.1 included
  have listed := mem_rootFiles_iff.2 ⟨place, found⟩
  rw [Bool.eq_false_iff]
  intro beneath
  rcases Path.isUnder_or_isUnder beneath ((rooted.files place set found).files file included) with
    inside | above
  · exact outside set listed inside
  · exact around set listed above

/-- A root that is added takes the place of what the settings put there. -/
theorem changes_addRoot (order : project.Consistent) (names : project.macros.names.Nodup)
    {path : Path} (reads : project.reads disk (.addRoot path) = true) {added : RootFiles}
    (fresh : added = .ofRoot path.normalize (project.refresh disk).project.principal.limits) :
    project.Changes disk (.addRoot path)
      { (project.refresh disk).project with
        imports := (project.refresh disk).project.imports.insert path.normalize
          (added.discover disk).1 }
      ((project.refresh disk).delta.merge (added.discover disk).2) false := by
  have reports := reports_insert (project.refresh disk).project disk path.normalize
    (project.refresh disk).project.principal.limits
  rw [← fresh] at reports
  refine changes_of_reports names reports (fun file included => ?_) rfl ⟨?_, ?_⟩
  · rcases (carries_refresh project disk).lost file included with still | excluded
    · -- The place that is taken holds files beneath the new root only.
      obtain ⟨place, set, found, here⟩ := includes_iff_files?.1 still
      refine .inl (includes_iff_files?.2 ⟨place, set, ?_, here⟩)
      rw [files?_insert, if_neg]
      · exact found
      · intro taken
        rw [← files?_congr _ taken] at found
        have rooted := (order.refresh disk).toRooted
        have beneath := (rooted.files _ set found).files file here
        have root := rooted.keys _ set found
        rw [Path.isUnder, Path.beq_iff.1 root] at beneath
        have outside := apart_of_reads order.toRooted reads included
        rw [Path.isUnder, beneath] at outside
        exact absurd outside (by decide)
    · cases again : (added.discover disk).2.nowIncluded.contains file with
      | true =>
          have walked := (added.moves_discover disk added.excluded).back file again
          refine .inl (includes_iff_files?.2 ⟨some path.normalize, _, ?_, walked⟩)
          rw [files?_insert, if_pos BEq.rfl]
      | false =>
          refine .inr ?_
          rw [FileChanges.contains_nowExcluded_merge, excluded, again]
          rfl
  · rintro ⟨set, walks, meets⟩
    cases walks with
    | settings _ moved walked => exact .inl (limitHit_refresh_of_walk moved walked meets)
    | addRoot _ =>
        rw [← fresh] at meets
        exact .inr meets
  · rintro (limit | limit)
    · exact hitsLimit_of_refresh reads limit
    · exact ⟨added, fresh ▸ .addRoot reads, limit⟩

/-- An operation that is refused before it reads the settings walks nothing. -/
theorem not_hitsLimit (unread : project.reads disk operation = false)
    (walks : ∀ set, project.Walks disk operation set → project.reads disk operation = true) :
    ¬project.HitsLimit disk operation := by
  rintro ⟨set, walked, -⟩
  rw [walks set walked] at unread
  exact absurd unread (by decide)

theorem comes_addRoot (order : project.Consistent) (names : project.macros.names.Nodup)
    (disk : Disk) (path : Path) :
    project.Comes disk (.addRoot path) (project.perform disk (.addRoot path)) := by
  rw [perform]
  rcases addRoot_cases project disk path with
    ⟨unread, error, refused⟩ | ⟨reads, added, fresh, accepted⟩
  · rw [refused]
    refine .refused unread (not_hitsLimit unread fun set walks => ?_)
    cases walks <;> assumption
  · rw [accepted]
    exact .told (changes_addRoot order names reads fresh)

theorem comes_removeRoot (names : project.macros.names.Nodup) (disk : Disk) (path : Path) :
    project.Comes disk (.removeRoot path) (project.perform disk (.removeRoot path)) := by
  have limit : project.reads disk (.removeRoot path) = true →
      (project.HitsLimit disk (.removeRoot path) ↔
        (project.refresh disk).delta.limitHit.isSome = true) := by
    intro reads
    refine hitsLimit_of_settings reads fun set walks => ?_
    cases walks with
    | settings _ moved walked => exact ⟨moved, walked⟩
  rw [perform]
  rcases removeRoot_cases project disk path with
    ⟨unread, error, refused⟩ | ⟨reads, ⟨error, refused⟩ | accepted⟩
  · rw [refused]
    refine .refused unread (not_hitsLimit unread fun set walks => ?_)
    cases walks
    assumption
  · rw [refused]
    exact .untold reads (changes_of_same names rfl (fun _ => rfl) rfl (limit reads)) fun _ => rfl
  · rw [accepted]
    refine .told (changes_of_carries names (carries_dropImport _ path.normalize)
      (beside_dropImport _ path.normalize) ?_)
    rw [limit reads, limitHit_dropImport]
    simp

/-- Given macros take the place of the old ones, and all files wait, whether or not that changes a
definition. -/
theorem comes_setMacros (disk : Disk) (given : List ProjectMacro) :
    project.Comes disk (.setMacros given) (project.perform disk (.setMacros given)) := by
  let moved : Project := { (project.refresh disk).project with macros := .ofList given }
  have same : ∀ file, moved.includes file = (project.refresh disk).project.includes file :=
    fun _ => rfl
  have carries : project.Carries moved (project.refresh disk).delta :=
    (carries_refresh project disk).trans_same rfl same
  have limit : project.HitsLimit disk (.setMacros given) ↔
      (project.refresh disk).delta.limitHit.isSome = true := by
    refine hitsLimit_of_settings rfl fun set walks => ?_
    cases walks with
    | settings _ moved walked => exact ⟨moved, walked⟩
  have changes : project.Changes disk (.setMacros given) moved (project.refresh disk).delta true :=
    ⟨carries.toReports, carries.lost, MacroTable.nodup_names_ofList given,
      limitWarned_refresh project disk, fun _ => .inl rfl, limit.symm⟩
  exact .untold rfl changes same

theorem rootFiles_finish (project : Project) (all : Bool) :
    (project.finish all).rootFiles = project.rootFiles := by
  cases all <;> rfl

theorem rootFiles_takeIn (project : Project) (delta : FileChanges) :
    (project.takeIn delta).1.rootFiles = project.rootFiles := rfl

/-- The roots are walked under the settings that were read. -/
theorem comes_reload (names : project.macros.names.Nodup) (disk : Disk) :
    project.Comes disk .reload (project.perform disk .reload) := by
  have carries := carries_rewalk project disk
  have beside := beside_rewalk project disk
  have roots : (project.reload disk).1.rootFiles = (project.rewalk disk).1.rootFiles := by
    rw [reload_eq, rootFiles_finish, rootFiles_takeIn]
  have limit : project.HitsLimit disk .reload ↔ (project.rewalk disk).1.MeetsLimit disk := by
    refine hitsLimit_iff_meetsLimit fun set => ⟨fun walks => ?_, fun listed => ?_⟩
    · cases walks with
      | settings reads _ _ => exact absurd reads Bool.false_ne_true
      | reload listed => rwa [roots] at listed
    · exact .reload (by rwa [roots])
  rw [perform, reload_eq]
  refine .told ⟨carries.toReports, carries.lost, ?_, ?_, fun resettled => .inl ?_, ?_⟩
  · rw [macros_of_beside beside, applied, macros_apply]
    exact MacroTable.nodup_names_ofList _
  · rw [limitWarned_of_beside beside, applied, limitWarned_apply]
  · exact settingsChanged_of_resettles names (resettled.of_beside beside)
  · rw [limitHit_rewalk, limit]

/-- The roots are walked within other limits. -/
theorem comes_discover (names : project.macros.names.Nodup) (disk : Disk)
    (limits : DiscoveryLimits) :
    project.Comes disk (.discover limits) (project.perform disk (.discover limits)) := by
  have carries := carries_withLimits project disk limits
  have beside : ((project.withLimits limits).discoverAll disk).1.beside = project.beside :=
    beside_discoverAll (project.withLimits limits) disk
  have roots : (project.discover disk limits).1.rootFiles =
      ((project.withLimits limits).discoverAll disk).1.rootFiles := by
    rw [discover_eq, rootFiles_takeIn]
  have limit : project.HitsLimit disk (.discover limits) ↔
      ((project.withLimits limits).discoverAll disk).1.MeetsLimit disk := by
    refine hitsLimit_iff_meetsLimit fun set => ⟨fun walks => ?_, fun listed => ?_⟩
    · cases walks with
      | settings reads _ _ => exact absurd reads Bool.false_ne_true
      | discover listed => rwa [roots] at listed
    · exact .discover (by rwa [roots])
  have changes : project.Changes disk (.discover limits)
      ((project.withLimits limits).discoverAll disk).1
      ((project.withLimits limits).discoverAll disk).2 false := by
    refine ⟨carries.toReports, carries.lost, ?_, ?_,
      fun resettled => absurd resettled (not_resettles_of_beside beside), ?_⟩
    · rwa [macros_of_beside beside]
    · exact limitWarned_of_beside beside
    · rw [limitHit_discoverAll, limit]
  rw [perform, discover_eq]
  exact .told changes

/-- **What every operation comes to.** -/
theorem comes_perform (order : project.Consistent) (names : project.macros.names.Nodup)
    (disk : Disk) (operation : Operation) :
    project.Comes disk operation (project.perform disk operation) := by
  cases operation with
  | excludePath path => exact comes_excludePath names disk path
  | includePath path => exact comes_includePath names disk path
  | addRoot path => exact comes_addRoot order names disk path
  | removeRoot path => exact comes_removeRoot names disk path
  | setMacros given => exact comes_setMacros disk given
  | reload => exact comes_reload names disk
  | discover limits => exact comes_discover names disk limits

end SvServer.Project
