import SvServer.Proofs.Project.Excluding

/-!
# Files that wait

Whatever changes which files a project includes reports each file that became included, and what is
reported waits for the next explicit recompile once the report is taken in.
-/

namespace SvServer

namespace FileChanges

/-- Whether the file is reported as included or as excluded. -/
def reports (delta : FileChanges) (file : Path) : Bool :=
  delta.nowIncluded.contains file || delta.nowExcluded.contains file

/-- A merged change reports what either of the two reports. -/
theorem reports_merge (earlier later : FileChanges) (file : Path) :
    (earlier.merge later).reports file = (earlier.reports file || later.reports file) := by
  rw [reports, contains_nowExcluded_merge, merge, PathSet.contains_diff, PathSet.contains_join,
    reports, reports]
  cases earlier.nowIncluded.contains file <;> cases earlier.nowExcluded.contains file <;>
    cases later.nowIncluded.contains file <;> cases later.nowExcluded.contains file <;> rfl

end FileChanges

/-! ## Included files -/

namespace RootFiles

theorem contains_includedFiles (set : RootFiles) (file : Path) :
    set.includedFiles.contains file = set.isIncluded file := by
  rw [Bool.eq_iff_iff, List.contains_iff_exists_mem_beq, isIncluded]
  constructor
  · rintro ⟨key, member, same⟩
    obtain ⟨⟨key, value⟩, kept, rfl⟩ := List.mem_map.1 member
    rw [List.mem_filter] at kept
    rw [PathMap.getElem?_congr _ same, PathMap.getElem?_of_mem_toList kept.1]
    exact kept.2
  · intro included
    cases stored : set.files[file]? with
    | none =>
        rw [stored] at included
        exact absurd included Bool.false_ne_true
    | some value =>
        rw [stored, Option.getD_some] at included
        obtain ⟨key, same, listed⟩ := PathMap.exists_mem_toList stored
        exact ⟨key, List.mem_map.2 ⟨(key, value), List.mem_filter.2 ⟨listed, included⟩, rfl⟩, same⟩

end RootFiles

namespace Project

/-- Whether some root of the project tracks the file as included. -/
def includes (project : Project) (file : Path) : Bool :=
  project.rootFiles.any fun set => set.isIncluded file

theorem contains_includedFiles (project : Project) (file : Path) :
    project.includedFiles.contains file = project.includes file := by
  rw [includedFiles, includes, List.contains_eq_any_beq, List.any_flatMap]
  congr 1
  funext set
  rw [← List.contains_eq_any_beq, RootFiles.contains_includedFiles]

/-! ## Changes that are still to be taken in -/

/-- A change of a project together with what it reports: nothing that waited is forgotten, and a
file that is included afterwards was included before, waits or is reported. -/
structure Reports (before after : Project) (delta : FileChanges) : Prop where
  waiting : ∀ file, before.waiting.contains file = true → after.waiting.contains file = true
  included : ∀ file, after.includes file = true →
    before.includes file = true ∨ after.waiting.contains file = true ∨ delta.reports file = true

variable {before between after : Project} {earlier later : FileChanges}

/-- A change that includes no more files has nothing to report. -/
theorem Reports.of_fewer (delta : FileChanges) (waiting : after.waiting = before.waiting)
    (fewer : ∀ file, after.includes file = true → before.includes file = true) :
    before.Reports after delta :=
  ⟨fun file waits => by rw [waiting, waits], fun file included => .inl (fewer file included)⟩

/-- Two changes in a row report what is in the merged report. -/
theorem Reports.trans (h : before.Reports between earlier) (h' : between.Reports after later) :
    before.Reports after (earlier.merge later) := by
  refine ⟨fun file waits => h'.waiting file (h.waiting file waits), fun file included => ?_⟩
  rw [FileChanges.reports_merge, Bool.or_eq_true]
  rcases h'.included file included with included | waits | reported
  · rcases h.included file included with included | waits | reported
    · exact .inl included
    · exact .inr (.inl (h'.waiting file waits))
    · exact .inr (.inr (.inl reported))
  · exact .inr (.inl waits)
  · exact .inr (.inr (.inr reported))

/-- A change that includes no more files may follow without a report of its own. -/
theorem Reports.trans_fewer (h : before.Reports between earlier)
    (waiting : after.waiting = between.waiting)
    (fewer : ∀ file, after.includes file = true → between.includes file = true) :
    before.Reports after earlier := by
  refine ⟨fun file waits => by rw [waiting, h.waiting file waits], fun file included => ?_⟩
  rw [waiting]
  exact h.included file (fewer file included)

/-! ## What leaves the files that wait alone -/

theorem waiting_dropImport (project : Project) (root : Path) :
    (project.dropImport root).1.waiting = project.waiting := by
  rw [dropImport]
  split <;> rfl

theorem waiting_addImport (project : Project) (root : Path) :
    (project.addImport root).waiting = project.waiting := by
  rw [addImport]
  split <;> rfl

theorem waiting_putFilesFor (project : Project) (path : Path) (set : RootFiles) :
    (project.putFilesFor path set).waiting = project.waiting := by
  rw [putFilesFor]
  split <;> rfl

/-! ## Files that are told to wait -/

/-- What is included waits after all was told to wait. -/
theorem waiting_addAllWaiting {project : Project} {file : Path}
    (included : project.addAllWaiting.includes file = true) :
    project.addAllWaiting.waiting.contains file = true := by
  have same : project.addAllWaiting.includes file = project.includes file := rfl
  rw [addAllWaiting, PathSet.contains_extend, contains_includedFiles, ← same, included,
    Bool.or_true]

theorem Reports.addAllWaiting (h : before.Reports after earlier) :
    before.Reports after.addAllWaiting earlier := by
  refine ⟨fun file waits => ?_, fun file included => .inr (.inl (waiting_addAllWaiting included))⟩
  rw [Project.addAllWaiting, PathSet.contains_extend, h.waiting file waits, Bool.true_or]

/-- What waits once a change was taken in. -/
theorem waiting_takeIn (project : Project) (delta : FileChanges) (file : Path) :
    (project.takeIn delta).1.waiting.contains file =
      (project.waiting.contains file || delta.reports file || delta.removed.contains file) := by
  show (((project.waiting.join _).join _).join _).contains file = _
  rw [PathSet.contains_join, PathSet.contains_join, PathSet.contains_join, FileChanges.reports,
    Bool.or_assoc (project.waiting.contains file)]

end Project

end SvServer
