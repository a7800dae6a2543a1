import SvServer.Proofs.Project.Operations

/-!
# What a change carries with it

A change of a project comes with a report of the files whose status it changed. Reports are merged
along the way, and a later one overrides an earlier one; so what has to be known of a report is that
it names every file that was included and no longer is, and that a file which it calls newly
included is included, or called excluded as well. Both are kept when two changes follow each other.
-/

namespace SvServer

/-! ## The files of one root -/

namespace RootFiles

/-- What a walk of a root and its report come to. -/
structure Moves (set after : RootFiles) (delta : FileChanges) : Prop where
  gained : ∀ file, after.isIncluded file = true →
    set.isIncluded file = true ∨ delta.nowIncluded.contains file = true
  lost : ∀ file, set.isIncluded file = true →
    after.isIncluded file = true ∨ delta.nowExcluded.contains file = true
  back : ∀ file, delta.nowIncluded.contains file = true → after.isIncluded file = true

/-- A walk under other exclusions reports every file whose status it changes. -/
theorem moves_discover (set : RootFiles) (disk : Disk) (excluded : PathSet) :
    set.Moves (RootFiles.discover { set with excluded := excluded } disk).1
      (RootFiles.discover { set with excluded := excluded } disk).2 where
  gained file included := by
    have same : isIncluded { set with excluded := excluded } file = set.isIncluded file := rfl
    rw [contains_nowIncluded_discover, included, same]
    cases set.isIncluded file <;> simp
  lost file included := by
    have same : isIncluded { set with excluded := excluded } file = set.isIncluded file := rfl
    rw [contains_nowExcluded_discover, same, included]
    cases (RootFiles.discover { set with excluded := excluded } disk).1.isIncluded file <;> simp
  back file reported := by
    rw [contains_nowIncluded_discover, Bool.and_eq_true] at reported
    exact reported.1

theorem moves_refl (set : RootFiles) : set.Moves set .empty where
  gained _ included := .inl included
  lost _ included := .inl included
  back _ reported := absurd reported PathSet.not_contains_empty

/-- What an operation on the files of a root answers: when it is accepted, with a report of all that
changed; when it is refused, no file changes its status. -/
structure Answers (set : RootFiles) (result : RootFiles × Except ProjectError FileChanges) :
    Prop where
  accepted : ∀ delta, result.2 = .ok delta → set.Moves result.1 delta
  refused : ∀ error, result.2 = .error error →
    ∀ file, result.1.isIncluded file = set.isIncluded file

theorem answers_ok {set after : RootFiles} {delta : FileChanges} (h : set.Moves after delta) :
    set.Answers (after, .ok delta) where
  accepted other same := by
    rw [← Except.ok.inj same]
    exact h
  refused _ same := absurd same nofun

theorem answers_error {set after : RootFiles} (error : ProjectError)
    (h : ∀ file, after.isIncluded file = set.isIncluded file) :
    set.Answers (after, .error error) where
  accepted _ same := absurd same nofun
  refused _ _ := h

/-- An operation works on the normal form of the path that it was given. -/
theorem eq_normalize_of_validPath {set : RootFiles} {disk : Disk} {path valid : Path}
    (h : set.validPath disk path = .ok valid) : valid = path.normalize := by
  rw [validPath] at h
  split at h
  · cases h
  · split at h
    · cases h
    · exact (Except.ok.inj h).symm

/-- **What excluding a path comes to**: it is refused, or the path was excluded before, or the root
is walked under other exclusions. -/
theorem excludePath_cases (set : RootFiles) (disk : Disk) (path : Path) :
    (∃ error, set.excludePath disk path = (set, .error error)) ∨
    set.isExcluded path.normalize = true ∧ set.excludePath disk path = (set, .ok .empty) ∨
    set.isExcluded path.normalize = false ∧ ∃ excluded, set.excludePath disk path =
      ((RootFiles.discover { set with excluded := excluded } disk).1,
        .ok (RootFiles.discover { set with excluded := excluded } disk).2) := by
  rw [excludePath]
  cases known : set.validPath disk path with
  | error error => exact .inl ⟨error, rfl⟩
  | ok valid =>
      rw [eq_normalize_of_validPath known]
      dsimp only
      cases already : set.isExcluded path.normalize with
      | true => exact .inr (.inl ⟨rfl, if_pos rfl⟩)
      | false => exact .inr (.inr ⟨rfl, _, if_neg (by decide)⟩)

/-- **What including a path comes to**: it is refused, perhaps after exclusions were moved, or the
root is walked under other exclusions. -/
theorem includePath_cases (set : RootFiles) (disk : Disk) (path : Path) :
    (∃ error excluded, set.includePath disk path =
      ({ set with excluded := excluded }, .error error)) ∨
    ∃ excluded, set.includePath disk path =
      ((RootFiles.discover { set with excluded := excluded } disk).1,
        .ok (RootFiles.discover { set with excluded := excluded } disk).2) := by
  rw [includePath]
  split
  · exact .inl ⟨_, set.excluded, rfl⟩
  · dsimp only
    split
    · exact .inr ⟨_, rfl⟩
    · split
      · exact .inl ⟨_, _, rfl⟩
      · exact .inr ⟨_, rfl⟩

theorem answers_excludePath (set : RootFiles) (disk : Disk) (path : Path) :
    set.Answers (set.excludePath disk path) := by
  rcases excludePath_cases set disk path with
    ⟨error, refused⟩ | ⟨-, already⟩ | ⟨-, excluded, walked⟩
  · rw [refused]
    exact answers_error _ fun _ => rfl
  · rw [already]
    exact answers_ok (moves_refl set)
  · rw [walked]
    exact answers_ok (moves_discover set disk excluded)

theorem answers_includePath (set : RootFiles) (disk : Disk) (path : Path) :
    set.Answers (set.includePath disk path) := by
  rcases includePath_cases set disk path with ⟨error, excluded, refused⟩ | ⟨excluded, walked⟩
  · rw [refused]
    exact answers_error _ fun _ => rfl
  · rw [walked]
    exact answers_ok (moves_discover set disk excluded)

end RootFiles

/-! ## The files of a project -/

namespace Project

/-- A change of a project together with its report: what it newly includes is reported or waits,
what it no longer includes is reported as excluded, and what is reported as included is so or is
reported as excluded too. -/
structure Carries (before after : Project) (delta : FileChanges) : Prop
    extends Reports before after delta where
  lost : ∀ file, before.includes file = true →
    after.includes file = true ∨ delta.nowExcluded.contains file = true
  back : ∀ file, delta.nowIncluded.contains file = true →
    after.includes file = true ∨ delta.nowExcluded.contains file = true

variable {before between after project : Project} {earlier later delta : FileChanges} {disk : Disk}

/-- A file that the earlier report names as excluded is named by the merged one, unless it is
included again. -/
theorem Carries.lost_merge (h : between.Carries after later) {file : Path}
    (excluded : earlier.nowExcluded.contains file = true) :
    after.includes file = true ∨ (earlier.merge later).nowExcluded.contains file = true := by
  rw [FileChanges.contains_nowExcluded_merge, excluded]
  cases again : later.nowIncluded.contains file with
  | false => exact .inr rfl
  | true =>
      rcases h.back file again with included | excluded
      · exact .inl included
      · rw [excluded]
        exact .inr rfl

/-- **Two changes in a row carry the merged report.** -/
theorem Carries.trans (h : before.Carries between earlier) (h' : between.Carries after later) :
    before.Carries after (earlier.merge later) := by
  have passed : ∀ file, between.includes file = true ∨ earlier.nowExcluded.contains file = true →
      after.includes file = true ∨ (earlier.merge later).nowExcluded.contains file = true := by
    rintro file (included | excluded)
    · rw [FileChanges.contains_nowExcluded_merge]
      rcases h'.lost file included with included | excluded
      · exact .inl included
      · rw [excluded, Bool.or_true]
        exact .inr rfl
    · exact h'.lost_merge excluded
  refine ⟨h.toReports.trans h'.toReports, fun file included => passed file (h.lost file included),
    fun file reported => ?_⟩
  have either : earlier.nowIncluded.contains file = true ∨
      later.nowIncluded.contains file = true := by
    rw [FileChanges.merge, PathSet.contains_diff, PathSet.contains_join, Bool.and_eq_true,
      Bool.or_eq_true] at reported
    exact reported.1
  rcases either with first | second
  · exact passed file (h.back file first)
  · rw [FileChanges.contains_nowExcluded_merge]
    rcases h'.back file second with included | excluded
    · exact .inl included
    · rw [excluded, Bool.or_true]
      exact .inr rfl

/-- A change of no file's status may follow without a report of its own. -/
theorem Carries.trans_same (h : before.Carries between delta)
    (waiting : after.waiting = between.waiting)
    (same : ∀ file, after.includes file = between.includes file) : before.Carries after delta where
  toReports := h.toReports.trans_fewer waiting fun file included => by rw [← same, included]
  lost file included := by
    rw [same]
    exact h.lost file included
  back file reported := by
    rw [same]
    exact h.back file reported

theorem carries_refl (project : Project) : project.Carries project .empty where
  toReports := .of_fewer _ rfl fun _ included => included
  lost _ included := .inl included
  back _ reported := absurd reported PathSet.not_contains_empty

/-- Where all that is included is told to wait, the report stays what it was. -/
theorem Carries.addAllWaiting (h : before.Carries after delta) :
    before.Carries after.addAllWaiting delta where
  toReports := h.toReports.addAllWaiting
  lost := h.lost
  back := h.back

/-- The files at a place do not depend on how it is spelled. -/
theorem files?_congr (project : Project) {place other : Option Path}
    (same : (place == other) = true) : project.files? place = project.files? other := by
  cases place with
  | none =>
      cases other with
      | none => rfl
      | some root => exact absurd same (by simp)
  | some root =>
      cases other with
      | none => exact absurd same (by simp)
      | some root' => exact PathMap.getElem?_congr _ same

/-- Other files at one place, none of which changes its status. -/
theorem includes_of_replaced {place : Option Path} {set other : RootFiles}
    (found : before.files? place = some set)
    (replaced : ∀ here, after.files? here =
      if place == here then some other else before.files? here)
    (same : ∀ file, other.isIncluded file = set.isIncluded file) (file : Path) :
    after.includes file = before.includes file := by
  rw [Bool.eq_iff_iff, includes_iff_files?, includes_iff_files?]
  constructor
  · rintro ⟨here, stored, there, included⟩
    rw [replaced] at there
    split at there
    · rw [← Option.some.inj there, same] at included
      exact ⟨place, set, found, included⟩
    · exact ⟨here, stored, there, included⟩
  · rintro ⟨here, stored, there, included⟩
    by_cases at_ : (place == here) = true
    · rw [← files?_congr before at_, found] at there
      rw [← Option.some.inj there, ← same] at included
      exact ⟨here, other, by rw [replaced, if_pos at_], included⟩
    · exact ⟨here, stored, by rw [replaced, if_neg at_, there], included⟩

/-- **Walking one root** carries the report of the walk. -/
theorem carries_of_moves {place : Option Path} {set walked : RootFiles}
    (found : before.files? place = some set)
    (replaced : ∀ other, after.files? other =
      if place == other then some walked else before.files? other)
    (waiting : after.waiting = before.waiting) (moves : set.Moves walked delta) :
    before.Carries after delta := by
  have put : after.files? place = some walked := by
    rw [replaced, if_pos]
    exact BEq.rfl
  have lost : ∀ file, before.includes file = true →
      after.includes file = true ∨ delta.nowExcluded.contains file = true := by
    intro file included
    obtain ⟨other, stored, here, included⟩ := includes_iff_files?.1 included
    by_cases same : (place == other) = true
    · rw [← files?_congr before same, found] at here
      rw [← Option.some.inj here] at included
      refine (moves.lost file included).imp_left fun included => ?_
      exact includes_iff_files?.2 ⟨place, walked, put, included⟩
    · refine .inl (includes_iff_files?.2 ⟨other, stored, ?_, included⟩)
      rw [replaced, if_neg same, here]
  refine ⟨⟨fun file waits => by rw [waiting, waits], fun file included => ?_⟩, lost,
    fun file reported => ?_⟩
  · obtain ⟨other, stored, here, included⟩ := includes_iff_files?.1 included
    rw [replaced] at here
    split at here
    · rw [← Option.some.inj here] at included
      rcases moves.gained file included with before | reported
      · exact .inl (includes_iff_files?.2 ⟨place, set, found, before⟩)
      · exact .inr (.inr (by rw [FileChanges.reports, reported, Bool.true_or]))
    · exact .inl (includes_iff_files?.2 ⟨other, stored, here, included⟩)
  · exact .inl (includes_iff_files?.2 ⟨place, walked, put, moves.back file reported⟩)

/-! ## Walks of all roots -/

theorem carries_walkPrincipal (project : Project) (disk : Disk) :
    project.Carries (project.walkPrincipal disk).1 (project.walkPrincipal disk).2 := by
  have found : project.files? none = some project.principal := rfl
  refine carries_of_moves found (fun other => ?_) rfl
    (project.principal.moves_discover disk project.principal.excluded)
  cases other <;> rfl

theorem carries_walkImport {state : Project × FileChanges} {entry : Path × RootFiles}
    (stored : state.1.imports[entry.1]? = some entry.2) :
    state.1.Carries (walkImport disk state entry).1 (entry.2.discover disk).2 := by
  have found : state.1.files? (some entry.1) = some entry.2 := stored
  refine carries_of_moves found (fun other => ?_) rfl
    (entry.2.moves_discover disk entry.2.excluded)
  cases other with
  | none => rfl
  | some root => exact PathMap.getElem?_put ..

/-- Import by import; what was walked already does not stand in the way of the others. -/
theorem Carries.foldl_walkImport {entries : List (Path × RootFiles)}
    (distinct : entries.Pairwise fun entry other => (entry.1 == other.1) = false)
    {state : Project × FileChanges} (h : before.Carries state.1 state.2)
    (stored : ∀ entry ∈ entries, state.1.imports[entry.1]? = some entry.2) :
    before.Carries (entries.foldl (walkImport disk) state).1
      (entries.foldl (walkImport disk) state).2 := by
  induction entries generalizing state with
  | nil => exact h
  | cons first rest ih =>
      obtain ⟨apart, distinct⟩ := List.pairwise_cons.1 distinct
      refine ih distinct (h.trans (carries_walkImport (stored first List.mem_cons_self))) ?_
      intro entry listed
      refine (PathMap.getElem?_put ..).trans ?_
      rw [apart entry listed]
      exact stored entry (List.mem_cons_of_mem _ listed)

/-- **A walk of all roots carries its report.** -/
theorem carries_discoverAll (project : Project) (disk : Disk) :
    project.Carries (project.discoverAll disk).1 (project.discoverAll disk).2 := by
  rw [discoverAll_eq]
  refine (carries_walkPrincipal project disk).foldl_walkImport ?_ fun entry listed =>
    PathMap.getElem?_of_mem_toList listed
  refine Std.ExtTreeMap.distinct_keys_toList.imp fun {entry other} distinct => ?_
  rw [Bool.eq_false_iff]
  exact fun same => distinct (Path.compare_eq_of_beq same)

/-! ## Settings -/

/-- Every file of a dropped import is reported. -/
theorem carries_dropImport (project : Project) (root : Path) :
    project.Carries (project.dropImport root).1 (project.dropImport root).2 := by
  refine ⟨.of_fewer _ (waiting_dropImport project root) fun _ => includes_of_dropImport,
    fun file included => ?_, fun file reported => ?_⟩
  · obtain ⟨place, set, found, included⟩ := includes_iff_files?.1 included
    rw [dropImport]
    split
    · exact .inl (includes_iff_files?.2 ⟨place, set, found, included⟩)
    · rename_i dropped here
      cases place with
      | none => exact .inl (includes_iff_files?.2 ⟨none, set, found, included⟩)
      | some other =>
          by_cases same : (root == other) = true
          · rw [files?, ← PathMap.getElem?_congr _ same, here] at found
            rw [← Option.some.inj found] at included
            refine .inr ?_
            show (PathSet.collect dropped.includedFiles).contains file = true
            rw [PathSet.contains_collect, RootFiles.contains_includedFiles, included]
          · refine .inl (includes_iff_files?.2 ⟨some other, set, ?_, included⟩)
            rw [files?, PathMap.getElem?_erase, if_neg same]
            exact found
  · rw [dropImport] at reported
    split at reported
    · exact absurd reported PathSet.not_contains_empty
    · exact absurd reported PathSet.not_contains_empty

/-- An added import has no files yet, and takes no other one's place. -/
theorem includes_addImport (project : Project) (root file : Path) :
    (project.addImport root).includes file = project.includes file := by
  rw [Bool.eq_iff_iff]
  refine ⟨includes_of_addImport, fun included => ?_⟩
  rw [addImport]
  split
  · exact included
  · rename_i new
    simp only [Bool.or_eq_true, not_or, Bool.not_eq_true] at new
    obtain ⟨place, set, found, included⟩ := includes_iff_files?.1 included
    refine includes_iff_files?.2 ⟨place, set, ?_, included⟩
    rw [files?_insert]
    split
    · rename_i same
      rw [← files?_congr project same, files?,
        Std.ExtTreeMap.getElem?_eq_none_of_contains_eq_false new.1.1] at found
      cases found
    · exact found

theorem carries_importRoots (project : Project) (disk : Disk) (entries : List String) :
    project.Carries (project.importRoots disk entries).1 (project.importRoots disk entries).2 := by
  have dropped : project.Carries (project.dropUnwanted disk entries).1
      (project.dropUnwanted disk entries).2 :=
    List.foldlRecOn (motive := fun state : Project × FileChanges =>
      project.Carries state.1 state.2) _ dropStep (carries_refl project)
      fun state carries root _ => carries.trans (carries_dropImport state.1 root)
  rw [importRoots_eq]
  exact List.foldlRecOn (motive := fun imported : Project =>
    project.Carries imported (project.dropUnwanted disk entries).2) _ addImport dropped
    fun imported carries root _ => carries.trans_same (waiting_addImport imported root)
      fun file => includes_addImport imported root file

/-- Changing the files at every place without touching what is tracked. -/
theorem includes_of_files?_map {change : RootFiles → RootFiles}
    (same : ∀ place, after.files? place = (before.files? place).map change)
    (files : ∀ set : RootFiles, (change set).files = set.files) (file : Path) :
    after.includes file = before.includes file := by
  have included : ∀ set : RootFiles, (change set).isIncluded file = set.isIncluded file := by
    intro set
    rw [RootFiles.isIncluded, files]
    rfl
  rw [Bool.eq_iff_iff, includes_iff_files?, includes_iff_files?]
  constructor
  · rintro ⟨place, set, found, holds⟩
    rw [same] at found
    obtain ⟨old, stored, rfl⟩ := Option.map_eq_some_iff.1 found
    exact ⟨place, old, stored, by rw [← included, holds]⟩
  · rintro ⟨place, set, found, holds⟩
    exact ⟨place, change set, by rw [same, found]; rfl, by rw [included, holds]⟩

theorem carries_apply (project : Project) (disk : Disk) (settings : ProjectSettings) :
    project.Carries (project.apply disk settings).project
      (project.apply disk settings).delta :=
  (carries_importRoots project disk settings.imports).trans_same rfl
    (includes_of_files?_map (files?_apply project disk settings) fun _ => rfl)

theorem carries_marked (project : Project) (disk : Disk) (settings : ProjectSettings) :
    project.Carries (project.marked disk settings) (project.apply disk settings).delta := by
  rw [marked]
  split
  · exact (carries_apply project disk settings).addAllWaiting
  · exact carries_apply project disk settings

/-- **Reading the settings again carries its report.** -/
theorem carries_refresh (project : Project) (disk : Disk) :
    project.Carries (project.refresh disk).project (project.refresh disk).delta := by
  rcases refresh_cases project disk with ⟨-, nothing⟩ | ⟨stored, -, ⟨-, kept⟩ | ⟨-, walked⟩⟩
  · rw [nothing]
    exact carries_refl project
  · rw [kept]
    exact carries_marked project disk stored
  · rw [walked]
    exact (carries_marked project disk stored).trans (carries_discoverAll _ disk)

/-! ## Operations -/

/-- The roots are walked under the settings that were read. -/
theorem carries_rewalk (project : Project) (disk : Disk) :
    project.Carries (project.rewalk disk).1 (project.rewalk disk).2 := by
  rw [rewalk, applied]
  dsimp only
  exact (carries_apply project disk (ProjectSettings.readOrEmpty disk project.root)).trans
    (carries_discoverAll _ disk)

/-- Other limits change no file's status by themselves. -/
theorem includes_withLimits (project : Project) (limits : DiscoveryLimits) (file : Path) :
    (project.withLimits limits).includes file = project.includes file :=
  includes_of_files?_map (files?_withLimits project limits) (fun _ => rfl) file

theorem carries_withLimits (project : Project) (disk : Disk) (limits : DiscoveryLimits) :
    project.Carries ((project.withLimits limits).discoverAll disk).1
      ((project.withLimits limits).discoverAll disk).2 := by
  have walked := carries_discoverAll (project.withLimits limits) disk
  refine ⟨⟨walked.waiting, fun file included => ?_⟩, fun file included => ?_, walked.back⟩
  · rw [← includes_withLimits project limits]
    exact walked.included file included
  · exact walked.lost file (by rw [includes_withLimits, included])

/-- A root that is added reports the files that are found in it. -/
theorem reports_insert (project : Project) (disk : Disk) (root : Path) (limits : DiscoveryLimits) :
    project.Reports
      { project with
        imports := project.imports.insert root ((RootFiles.ofRoot root limits).discover disk).1 }
      ((RootFiles.ofRoot root limits).discover disk).2 where
  waiting _ waits := waits
  included file included := by
    rcases includes_of_insert included with walked | before
    · refine .inr (.inr ?_)
      rw [FileChanges.reports, RootFiles.contains_nowIncluded_discover, walked,
        RootFiles.isIncluded_ofRoot]
      rfl
    · exact .inl before

/-- **What a change of the files of one root comes to**: it is accepted with a report of all that it
changed, or refused, and then no file changes its status. -/
theorem changeFiles_cases (project : Project) (disk : Disk) (path : Path)
    {change : RootFiles → RootFiles × Except ProjectError FileChanges}
    (answers : ∀ set : RootFiles, set.Answers (change set)) :
    ∃ set,
      (∃ delta, change ((project.refresh disk).project.filesFor path) = (set, .ok delta) ∧
        (project.refresh disk).project.Carries
          ((project.refresh disk).project.putFilesFor path set) delta ∧
        project.changeFiles disk path change =
          .accept ((project.refresh disk).project.putFilesFor path set) disk
            (project.refresh disk).stored ((project.refresh disk).delta.merge delta)) ∨
      ∃ error, change ((project.refresh disk).project.filesFor path) = (set, .error error) ∧
        (∀ file, ((project.refresh disk).project.putFilesFor path set).includes file =
          (project.refresh disk).project.includes file) ∧
        project.changeFiles disk path change =
          .refuse ((project.refresh disk).project.putFilesFor path set) disk
            (project.refresh disk).delta error := by
  have answered := answers ((project.refresh disk).project.filesFor path)
  have found : (project.refresh disk).project.files? _ = some _ := files?_importAbove? path
  rw [changeFiles]
  generalize change ((project.refresh disk).project.filesFor path) = outcome at answered
  obtain ⟨set, result⟩ := outcome
  have places := files?_putFilesFor (project.refresh disk).project path set
  refine ⟨set, ?_⟩
  cases result with
  | ok delta =>
      refine .inl ⟨delta, rfl, ?_, rfl⟩
      exact carries_of_moves found places (waiting_putFilesFor _ path set)
        (answered.accepted delta rfl)
  | error error =>
      exact .inr ⟨error, rfl, includes_of_replaced found places (answered.refused error rfl), rfl⟩

end Project

end SvServer
