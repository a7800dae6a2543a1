import SvServer.Proofs.Project.Reporting

/-!
# Work that operations leave

An operation may be refused, may be made to tell nothing, and may find that the settings on the disk
moved files or changed macros. In every case what waited still waits, and so does every file that
came or went; if macros are defined otherwise or other names are hidden, all included files wait.

Files to be cleared and a first limit are told only by an operation that hands something over. One
that was refused after it had read the settings, or that set macros, keeps them to itself.
-/

namespace SvServer.Project

variable {project moved : Project} {disk : Disk} {operation : Operation} {delta : FileChanges}
variable {all : Bool} {result : Project × Option FollowUp}

/-! ## Tables of macros -/

theorem nodup_names_openRoot {root : Path} {limits : DiscoveryLimits} {followUp : FollowUp}
    (opens : openRoot disk root limits = .ok (project, followUp)) : project.macros.names.Nodup := by
  obtain ⟨settings, delta, rfl⟩ := eq_of_openRoot opens
  simp only [addAllWaiting, takeIn]
  rw [macros_of_beside (beside_discoverAll _ disk), macros_apply]
  exact MacroTable.nodup_names_ofList _

theorem beside_finish (project : Project) (all : Bool) :
    (project.finish all).beside = project.beside := by
  cases all <;> rfl

theorem macros_dropMissing (project : Project) (disk : Disk) (path : Path) :
    (project.dropMissing disk path).1.macros = project.macros := by
  rw [dropMissing]
  dsimp only
  split
  · exact macros_of_beside (beside_putFilesFor project path _)
  · rfl

/-- What follows on a change leaves the table of macros alone. -/
theorem Comes.nodup_names (h : project.Comes disk operation result)
    (names : project.macros.names.Nodup) : result.1.macros.names.Nodup := by
  cases h with
  | refused => exact names
  | told changes =>
      rw [macros_of_beside (beside_finish _ _)]
      exact changes.names
  | untold _ changes _ =>
      rw [macros_of_beside (beside_finish _ _)]
      exact changes.names

/-- **In every project that operations lead to, each macro stands once in the table.** -/
theorem Reachable.nodup_names (h : project.Reachable) : project.macros.names.Nodup := by
  induction h with
  | opened opens => exact nodup_names_openRoot opens
  | performed disk operation before ih =>
      exact (comes_perform before.consistent ih disk operation).nodup_names ih
  | dropped disk path _ ih => rwa [macros_dropMissing]
  | waits path _ ih => exact ih
  | allWait _ ih => exact ih
  | handedOver _ ih => exact ih

/-! ## What waits -/

/-- What waits after an operation: whatever waited, each file that came or went, and if macros are
defined otherwise or other names are hidden, every included file. -/
structure KeepsWaiting (before after : Project) : Prop where
  waited : ∀ file, before.waiting.contains file = true → after.waiting.contains file = true
  moved : ∀ file, after.includes file ≠ before.includes file → after.waiting.contains file = true
  resettled : before.Resettles after →
    ∀ file, after.includes file = true → after.waiting.contains file = true

theorem includes_finish (project : Project) (all : Bool) (file : Path) :
    (project.finish all).includes file = project.includes file := by
  cases all <;> rfl

theorem waiting_finish {project : Project} {file : Path}
    (waits : project.waiting.contains file = true) (all : Bool) :
    (project.finish all).waiting.contains file = true := by
  cases all with
  | false => exact waits
  | true =>
      rw [finish, if_pos rfl, addAllWaiting, PathSet.contains_extend, waits]
      rfl

/-- **A change that is taken in loses no work.** -/
theorem Changes.keepsWaiting (h : project.Changes disk operation moved delta all) :
    project.KeepsWaiting ((moved.takeIn delta).1.finish all) := by
  have waits : ∀ file, moved.waiting.contains file = true ∨ delta.reports file = true →
      ((moved.takeIn delta).1.finish all).waiting.contains file = true := by
    rintro file either
    refine waiting_finish ?_ all
    rw [waiting_takeIn, Bool.or_eq_true, Bool.or_eq_true]
    exact .inl either
  have status : ∀ file, ((moved.takeIn delta).1.finish all).includes file = moved.includes file :=
    fun file => includes_finish _ all file
  constructor
  · exact fun file waited => waits file (.inl (h.waiting file waited))
  · intro file other
    rw [status] at other
    cases before : project.includes file with
    | true =>
        have left := (h.lost file before).resolve_left fun still => other (still.trans before.symm)
        exact waits file (.inr (by rw [FileChanges.reports, left, Bool.or_true]))
    | false =>
        rw [before, ne_eq, Bool.not_eq_false] at other
        exact waits file ((h.included file other).resolve_left (by simp [before]))
  · intro resettled file included
    have settings : project.Resettles moved := by
      cases all <;> exact resettled
    rcases h.awaits settings with rfl | awaits
    · exact waiting_addAllWaiting included
    · rw [status] at included
      exact waits file (awaits file included)

theorem Comes.keepsWaiting (h : project.Comes disk operation result) :
    project.KeepsWaiting result.1 := by
  cases h with
  | refused =>
      exact ⟨fun _ waits => waits, fun _ other => absurd rfl other,
        fun resettled => absurd resettled (not_resettles_of_beside rfl)⟩
  | told changes => exact changes.keepsWaiting
  | untold reads changes same => exact changes.keepsWaiting

/-- **No operation loses work**, done or refused, whatever is on the disk by then. -/
theorem keepsWaiting_perform (h : project.Reachable) (disk : Disk) (operation : Operation) :
    project.KeepsWaiting (project.perform disk operation).1 :=
  (comes_perform h.consistent h.nodup_names disk operation).keepsWaiting

/-- A disk with a project of two files and what else is in its folder. -/
def pairDisk (rest : Folder) : Disk where
  top := .folder "p" true (.file "side.sv" ⟨some "`A\n", 3, 0⟩
    (.file "top.sv" ⟨some "module top;\nendmodule\n", 23, 0⟩ rest)) .empty
  current := .ofString "/"
  now := 1

/-- The disk once another tool has written settings that exclude one of the files. -/
def editedDisk : Disk :=
  pairDisk (.file ".hdl-project" ⟨some "\x7b\"excludePaths\": [\"side.sv\"]\x7d", 29, 1⟩ .empty)

/-- The project, opened before there were settings. -/
def pairOpened : Except ProjectError (Project × FollowUp) :=
  openRoot (pairDisk .empty) (.ofString "/p") ⟨100, 100⟩

theorem isSome_pairOpened : pairOpened.toOption.isSome = true := by decide +kernel

def pairProject : Project := (pairOpened.toOption.get isSome_pairOpened).1

theorem reachable_pairProject : pairProject.Reachable := by
  cases opens : pairOpened with
  | error error =>
      have opened := isSome_pairOpened
      rw [opens] at opened
      exact absurd opened Bool.false_ne_true
  | ok opened =>
      have same : pairProject = opened.1 := by simp only [pairProject, opens]; rfl
      rw [same]
      exact .opened opens

/-- What waits when the file is excluded behind the project's back. -/
theorem keepsWaiting_pairProject : pairProject.Reachable ∧
    pairProject.KeepsWaiting (pairProject.perform editedDisk (.setMacros [])).1 :=
  ⟨reachable_pairProject, keepsWaiting_perform reachable_pairProject editedDisk (.setMacros [])⟩

/-! ## What is told -/

/-- Whether what comes of an operation tells all that it has to: each file that was taken out, and
the first limit that was met. -/
structure Tells (project : Project) (disk : Disk) (operation : Operation)
    (result : Project × Option FollowUp) : Prop where
  cleared : ∀ file, project.includes file = true → result.1.includes file = false →
    ∃ followUp, result.2 = some followUp ∧ followUp.cleared.contains file = true
  limit : project.limitWarned = false → project.HitsLimit disk operation →
    ∃ followUp, result.2 = some followUp ∧ followUp.limitWarning.isSome = true

/-- Whether reading the settings neither takes a file out nor meets a first limit. -/
structure ReadsQuietly (project : Project) (disk : Disk) : Prop where
  included : ∀ file, project.includes file = true →
    (project.refresh disk).project.includes file = true
  limit : project.limitWarned = false → (project.refresh disk).delta.limitHit.isSome = false

/-- What hands something over tells everything. -/
theorem Changes.tells (h : project.Changes disk operation moved delta all) :
    project.Tells disk operation
      ((moved.takeIn delta).1.finish all, some (moved.takeIn delta).2) where
  cleared file included gone := by
    rw [includes_finish] at gone
    refine ⟨_, rfl, (h.lost file included).resolve_left fun still => ?_⟩
    exact Bool.false_ne_true (gone.symm.trans still)
  limit unwarned hits := by
    refine ⟨_, rfl, ?_⟩
    rw [takeIn]
    dsimp only
    rw [h.limitWarned, unwarned]
    exact h.limit.2 hits

/-- What hands nothing over after the settings were read tells all only if there was nothing to
tell. -/
theorem Changes.tells_none_iff
    (h : project.Changes disk operation moved (project.refresh disk).delta all)
    (same : ∀ file, moved.includes file = (project.refresh disk).project.includes file) :
    project.Tells disk operation ((moved.takeIn (project.refresh disk).delta).1.finish all, none) ↔
      project.ReadsQuietly disk := by
  have status : ∀ file,
      ((moved.takeIn (project.refresh disk).delta).1.finish all).includes file =
        (project.refresh disk).project.includes file :=
    fun file => (includes_finish _ all file).trans (same file)
  constructor
  · intro tells
    constructor
    · intro file included
      rw [← Bool.not_eq_false]
      intro gone
      obtain ⟨_, nothing, -⟩ := tells.cleared file included ((status file).trans gone)
      cases nothing
    · intro unwarned
      rw [Bool.eq_false_iff]
      intro hits
      obtain ⟨_, nothing, -⟩ := tells.limit unwarned (h.limit.1 hits)
      cases nothing
  · intro quiet
    constructor
    · intro file included gone
      have still := (status file).trans (quiet.included file included)
      exact absurd (gone.symm.trans still) Bool.false_ne_true
    · intro unwarned hits
      have met := (quiet.limit unwarned).symm.trans (h.limit.2 hits)
      exact absurd met Bool.false_ne_true

/-- Refused before the settings are read, an operation has nothing to tell. -/
theorem tells_refused (unwalked : ¬project.HitsLimit disk operation) :
    project.Tells disk operation (project, none) where
  cleared _ included gone := absurd (gone.symm.trans included) Bool.false_ne_true
  limit _ hits := absurd hits unwalked

/-- **An operation tells all that it has to exactly when it hands something over**, reads no
settings, or finds nothing in them that had to be told. -/
theorem tells_perform_iff (h : project.Reachable) (disk : Disk) (operation : Operation) :
    project.Tells disk operation (project.perform disk operation) ↔
      (project.perform disk operation).2.isSome = true ∨
        project.reads disk operation = false ∨ project.ReadsQuietly disk := by
  have comes := comes_perform h.consistent h.nodup_names disk operation
  generalize project.perform disk operation = result at comes
  cases comes with
  | refused unread unwalked => exact iff_of_true (tells_refused unwalked) (.inr (.inl unread))
  | told changes => exact iff_of_true changes.tells (.inl rfl)
  | untold reads changes same => rw [changes.tells_none_iff same, reads]; simp

/-- The settings exclude a file that was included, and macros are set. -/
theorem tells_iff_pairProject : pairProject.Reachable ∧
    (pairProject.Tells editedDisk (.setMacros []) (pairProject.perform editedDisk (.setMacros []))
      ↔ (pairProject.perform editedDisk (.setMacros [])).2.isSome = true ∨
        pairProject.reads editedDisk (.setMacros []) = false ∨
        pairProject.ReadsQuietly editedDisk) :=
  ⟨reachable_pairProject, tells_perform_iff reachable_pairProject editedDisk (.setMacros [])⟩

/-- **A file that goes out while macros are set is not told of**, nor is one that goes out while an
exclusion is refused. -/
theorem not_tells_pairProject : pairProject.Reachable ∧
    (¬pairProject.Tells editedDisk (.setMacros [])
      (pairProject.perform editedDisk (.setMacros []))) ∧
    ¬pairProject.Tells editedDisk (.excludePath (.ofString "/p/none.sv"))
      (pairProject.perform editedDisk (.excludePath (.ofString "/p/none.sv"))) := by
  have included : pairProject.includes (.ofString "/p/side.sv") = true := by decide +kernel
  have gone : (pairProject.perform editedDisk (.setMacros [])).1.includes (.ofString "/p/side.sv")
      = false := by decide +kernel
  have refused : (pairProject.perform editedDisk (.excludePath (.ofString "/p/none.sv"))).1.includes
      (.ofString "/p/side.sv") = false ∧
      (pairProject.perform editedDisk (.excludePath (.ofString "/p/none.sv"))).2.isSome = false := by
    decide +kernel
  refine ⟨reachable_pairProject, ?_, ?_⟩
  · intro tells
    obtain ⟨_, nothing, -⟩ := tells.cleared _ included gone
    cases nothing
  · intro tells
    obtain ⟨_, told, -⟩ := tells.cleared _ included refused.1
    rw [told] at refused
    cases refused.2

end SvServer.Project
