import SvServer.Project.Change
import SvServer.Proofs.PathSet

/-!
# What an exclusion takes out of a project

A walk decides anew which files are included, and reports those that no longer are. Excluding a path
walks the root that it belongs to; so the report names, of the files at or beneath the path, exactly
those that this root tracked as included. From then on the project excludes them all, tracked or
not.
-/

namespace SvServer

/-- What covers a path covers everything beneath it. -/
theorem Path.isCoveredBy_of_isUnder {path above : Path} {covers : List Path}
    (under : path.isUnder above = true) (covered : above.isCoveredBy covers = true) :
    path.isCoveredBy covers = true := by
  obtain ⟨cover, member, covered⟩ := List.any_eq_true.1 covered
  exact List.any_eq_true.2 ⟨cover, member, isUnder_trans under covered⟩

theorem Path.isCoveredBy_of_mem {path above : Path} {covers : List Path}
    (under : path.isUnder above = true) {cover : Path} (member : cover ∈ covers)
    (same : (above == cover) = true) : path.isCoveredBy covers = true := by
  refine List.any_eq_true.2 ⟨cover, member, ?_⟩
  rw [isUnder, ← beq_iff.1 same]
  exact under

namespace RootFiles

variable {set : RootFiles} {disk : Disk} {path file : Path}

theorem isIncluded_congr (set : RootFiles) {a b : Path} (h : (a == b) = true) :
    set.isIncluded a = set.isIncluded b := by
  rw [isIncluded, isIncluded, PathMap.getElem?_congr _ h]

theorem isExcluded_congr (set : RootFiles) {a b : Path} (h : (a == b) = true) :
    set.isExcluded a = set.isExcluded b := by
  simp only [isExcluded, Path.isCoveredBy, Path.isUnder, Path.beq_iff.1 h]

/-! ## Walks -/

theorem getElem?_foldl_insert (paths : List Path) (value : Path → Bool)
    (congr : ∀ a b : Path, (a == b) = true → value a = value b) (files : PathMap Bool)
    (path : Path) :
    (paths.foldl (fun files path => files.insert path (value path)) files)[path]? =
      if paths.contains path then some (value path) else files[path]? := by
  rw [← List.any_beq']
  apply read_foldl (fun (files : PathMap Bool) path => files[path]?) (· == ·)
    (fun files path other => PathMap.getElem?_insert files path other (value path))
  intro other _ same
  rw [congr other path same]

/-- A walk tracks what it finds, as included unless that is excluded. -/
theorem getElem?_discover (set : RootFiles) (disk : Disk) (file : Path) :
    (set.discover disk).1.files[file]? =
      if (disk.discover set.root ⟨set.excluded.toList, set.limits⟩).files.contains file then
        some (!set.isExcluded file)
      else none := by
  have looked := getElem?_foldl_insert
    (disk.discover set.root ⟨set.excluded.toList, set.limits⟩).files.toList
    (fun file => !set.isExcluded file)
    (fun a b same => congrArg (!·) (set.isExcluded_congr same)) ∅ file
  rw [Std.ExtTreeSet.contains_toList, Std.ExtTreeMap.getElem?_empty] at looked
  exact looked

theorem isIncluded_discover (set : RootFiles) (disk : Disk) (file : Path) :
    (set.discover disk).1.isIncluded file =
      ((disk.discover set.root ⟨set.excluded.toList, set.limits⟩).files.contains file &&
        !set.isExcluded file) := by
  rw [isIncluded, getElem?_discover]
  cases (disk.discover set.root ⟨set.excluded.toList, set.limits⟩).files.contains file <;> rfl

/-- **A walk reports the files that were included and no longer are.** -/
theorem contains_nowExcluded_discover (set : RootFiles) (disk : Disk) (file : Path) :
    (set.discover disk).2.nowExcluded.contains file =
      (set.isIncluded file && !(set.discover disk).1.isIncluded file) := by
  have filtered := PathSet.contains_filter (PathSet.collect set.files.keys)
    (fun file => set.isIncluded file && !(set.discover disk).1.isIncluded file)
    (fun a b same => by rw [isIncluded_congr set same, isIncluded_congr _ same]) file
  refine Eq.trans filtered ?_
  rw [PathSet.contains_collect, Std.ExtTreeMap.contains_keys]
  cases tracked : set.files.contains file with
  | true => rw [Bool.true_and]
  | false =>
      rw [isIncluded, Std.ExtTreeMap.getElem?_eq_none_of_contains_eq_false tracked]
      rfl

/-- **A walk reports the files that are included and were not.** -/
theorem contains_nowIncluded_discover (set : RootFiles) (disk : Disk) (file : Path) :
    (set.discover disk).2.nowIncluded.contains file =
      ((set.discover disk).1.isIncluded file && !set.isIncluded file) := by
  have filtered := PathSet.contains_filter
    (disk.discover set.root ⟨set.excluded.toList, set.limits⟩).files
    (fun file => (set.discover disk).1.isIncluded file && !set.isIncluded file)
    (fun a b same => by rw [isIncluded_congr set same, isIncluded_congr _ same]) file
  refine Eq.trans filtered ?_
  rw [isIncluded_discover]
  cases (disk.discover set.root ⟨set.excluded.toList, set.limits⟩).files.contains file <;> simp

/-! ## Exclusions -/

/-- What the exclusion of a path under the root comes to, file by file beneath that path. -/
structure Excludes (set : RootFiles) (path : Path) (after : RootFiles) (delta : FileChanges) :
    Prop where
  excluded : ∀ file, file.isUnder path = true → after.isExcluded file = true
  reported : ∀ file, file.isUnder path = true →
    delta.nowExcluded.contains file = (!set.isExcluded path && set.isIncluded file)
  silent : ∀ file, file.isUnder path = true → delta.nowIncluded.contains file = false

/-- **Excluding a path takes out exactly what was included beneath it.** -/
theorem excludes_excludePath (under : set.isUnderRoot path.normalize = true)
    (there : disk.pathExists path.normalize = true) :
    ∃ after delta, set.excludePath disk path = (after, .ok delta) ∧
      set.Excludes path.normalize after delta := by
  have valid : set.validPath disk path = .ok path.normalize := by
    simp [validPath, under, there]
  rw [excludePath, valid]
  dsimp only
  split
  · -- The path was excluded before, so nothing is walked and nothing reported.
    rename_i already
    refine ⟨set, .empty, rfl, ?_, ?_, ?_⟩
    · intro file beneath
      exact Path.isCoveredBy_of_isUnder beneath already
    · intro file beneath
      rw [already]
      exact Std.ExtTreeSet.contains_empty
    · intro file beneath
      exact Std.ExtTreeSet.contains_empty
  · -- The root is walked again, with the path among its exclusions.
    rename_i new
    rw [Bool.not_eq_true] at new
    let wider : RootFiles := { set with
      excluded := (set.excluded.filter fun other => !other.isUnder path.normalize).insert
        path.normalize }
    have excluded : ∀ file, file.isUnder path.normalize = true → wider.isExcluded file = true := by
      intro file beneath
      have member : wider.excluded.contains path.normalize = true := by
        rw [PathSet.contains_insert, BEq.rfl, Bool.true_or]
      obtain ⟨cover, listed, same⟩ := PathSet.exists_mem_toList member
      exact Path.isCoveredBy_of_mem beneath listed same
    have out : ∀ file, file.isUnder path.normalize = true →
        (wider.discover disk).1.isIncluded file = false := by
      intro file beneath
      rw [isIncluded_discover, excluded file beneath]
      exact Bool.and_false _
    refine ⟨(wider.discover disk).1, (wider.discover disk).2, rfl, ?_, ?_, ?_⟩
    · exact excluded
    · intro file beneath
      rw [contains_nowExcluded_discover, out file beneath, new, Bool.not_false, Bool.and_true,
        Bool.true_and]
      rfl
    · intro file beneath
      rw [Bool.eq_false_iff]
      intro reported
      rw [contains_nowIncluded_discover, out file beneath, Bool.false_and] at reported
      exact absurd reported (by decide)

end RootFiles

/-! ## Exclusions of a project -/

namespace FileChanges

/-- Of two changes in a row, the later one counts. -/
theorem contains_nowExcluded_merge (earlier later : FileChanges) (file : Path) :
    (earlier.merge later).nowExcluded.contains file =
      ((earlier.nowExcluded.contains file && !later.nowIncluded.contains file) ||
        later.nowExcluded.contains file) := by
  rw [merge, PathSet.contains_join, PathSet.contains_diff]

end FileChanges

namespace Project

/-- The files put in the place of those that a path belongs to are files of the project. -/
theorem mem_rootFiles_putFilesFor (project : Project) (path : Path) (set : RootFiles) :
    set ∈ (project.putFilesFor path set).rootFiles := by
  rw [putFilesFor]
  split
  · rename_i root above
    have stored : (project.imports.put root set)[root]? = some set := by
      rw [PathMap.getElem?_put, BEq.rfl, if_pos rfl]
    exact List.mem_cons_of_mem _ (PathMap.mem_values_of_getElem? stored)
  · exact List.mem_cons_self

theorem isExcluded_of_mem {project : Project} {set : RootFiles} (member : set ∈ project.rootFiles)
    {file : Path} (excluded : set.isExcluded file = true) : project.isExcluded file = true :=
  List.any_eq_true.2 ⟨set, member, excluded⟩

/-- A file is excluded by a project if it lies at or beneath one of its exclusions. -/
theorem isCoveredBy_exclusions (project : Project) (file : Path) :
    file.isCoveredBy project.exclusions = project.isExcluded file := by
  rw [exclusions, isExcluded, Path.isCoveredBy, List.any_flatMap]
  rfl

/-- **What an accepted exclusion comes to**, file by file beneath the path: the project excludes the
file, and clears it if reading the settings again took it out, or if the exclusion is new and the
root of the path tracked the file as included. -/
theorem excludePath_accepted (project : Project) (disk : Disk) (path : Path)
    (under : ((project.refresh disk).project.filesFor path).isUnderRoot path.normalize = true)
    (there : disk.pathExists path.normalize = true) :
    ∃ after saved followUp, project.excludePath disk path = ⟨after, saved, .ok followUp⟩ ∧
      ∀ file, file.isUnder path.normalize = true →
        after.isExcluded file = true ∧
        followUp.cleared.contains file =
          ((project.refresh disk).delta.nowExcluded.contains file ||
            (!((project.refresh disk).project.filesFor path).isExcluded path.normalize &&
              ((project.refresh disk).project.filesFor path).isIncluded file)) := by
  obtain ⟨set, delta, result, excludes⟩ := RootFiles.excludes_excludePath under there
  rw [excludePath, changeFiles]
  simp only [result]
  refine ⟨_, _, _, rfl, ?_⟩
  intro file beneath
  constructor
  · exact isExcluded_of_mem (mem_rootFiles_putFilesFor _ path set) (excludes.excluded file beneath)
  · show ((project.refresh disk).delta.merge delta).nowExcluded.contains file = _
    rw [FileChanges.contains_nowExcluded_merge, excludes.reported file beneath,
      excludes.silent file beneath, Bool.not_false, Bool.and_true]

end Project

end SvServer
