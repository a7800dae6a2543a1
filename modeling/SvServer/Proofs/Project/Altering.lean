import Mathlib.Logic.Relation
import SvServer.Proofs.Disk
import SvServer.Proofs.Project.Imports
import SvServer.Proofs.Project.Operations

/-!
# How operations alter the roots of a project

Every operation is a row of few kinds of alterations: all roots get other exclusions, are walked or
get other limits, an import is dropped or added, the files of one root are changed. Only adding a
root on request is of its own kind, because the room for it is looked for before the settings are
read again. So what all alterations keep, all operations keep.
-/

namespace SvServer

namespace RootFiles

/-- One change of the files of a root. -/
inductive Alters (disk : Disk) (set : RootFiles) : RootFiles → Prop
  | excludePath (path : Path) : Alters disk set (set.excludePath disk path).1
  | includePath (path : Path) : Alters disk set (set.includePath disk path).1
  | dropMissing (path : Path) : Alters disk set (set.dropMissing disk path).1

/-- A change of its files leaves a root where it is. -/
theorem Alters.root {disk : Disk} {set after : RootFiles} (h : set.Alters disk after) :
    after.root = set.root := by
  cases h with
  | excludePath path => exact (set.keeps_excludePath disk path).root
  | includePath path => exact (set.keeps_includePath disk path).root
  | dropMissing path =>
      obtain ⟨files, after⟩ := dropMissing_fst set disk path
      rw [after]

/-- What is kept of the files of a root, whatever is done to them. -/
structure Kept (disk : Disk) (holds : RootFiles → Prop) : Prop where
  ofRoot : ∀ root limits, holds (.ofRoot root limits)
  setExclusions : ∀ set base entries, holds set → holds (set.setExclusions disk base entries)
  discover : ∀ set, holds set → holds (set.discover disk).1
  withLimits : ∀ (set : RootFiles) limits, holds set → holds { set with limits := limits }
  alters : ∀ set after, set.Alters disk after → holds set → holds after

/-- The files of a root that come about by what can be done to them, each time on a disk of its
own. -/
inductive Reached : RootFiles → Prop
  | ofRoot (root : Path) (limits : DiscoveryLimits) : Reached (.ofRoot root limits)
  | setExclusions {set : RootFiles} {disk : Disk} (named : disk.isWellNamed = true) (base : Path)
      (entries : List String) (before : Reached set) :
      Reached (set.setExclusions disk base entries)
  | discover {set : RootFiles} {disk : Disk} (named : disk.isWellNamed = true)
      (before : Reached set) : Reached (set.discover disk).1
  | withLimits {set : RootFiles} (limits : DiscoveryLimits) (before : Reached set) :
      Reached { set with limits := limits }
  | alters {set after : RootFiles} {disk : Disk} (named : disk.isWellNamed = true)
      (alters : set.Alters disk after) (before : Reached set) : Reached after
  | dropAll {set : RootFiles} (before : Reached set) : Reached set.dropAll.1

/-- What is kept on every disk, and when all files are dropped, holds of all files of roots. -/
theorem Reached.of_kept {holds : RootFiles → Prop}
    (kept : ∀ disk : Disk, disk.isWellNamed = true → Kept disk holds)
    (dropAll : ∀ set : RootFiles, holds set → holds set.dropAll.1) {set : RootFiles}
    (h : set.Reached) : holds set := by
  induction h with
  | ofRoot root limits => exact (kept ⟨.empty, ⟨[""]⟩, 0⟩ rfl).ofRoot root limits
  | setExclusions named base entries _ ih => exact (kept _ named).setExclusions _ base entries ih
  | discover named _ ih => exact (kept _ named).discover _ ih
  | withLimits limits _ ih => exact (kept ⟨.empty, ⟨[""]⟩, 0⟩ rfl).withLimits _ limits ih
  | alters named alters _ ih => exact (kept _ named).alters _ _ alters ih
  | dropAll _ ih => exact dropAll _ ih

/-- **All that is known of a root stays beneath it**, whatever is done. -/
theorem kept_rooted (disk : Disk) : Kept disk Rooted where
  ofRoot := rooted_ofRoot
  setExclusions _ base entries h := h.setExclusions disk base entries
  discover _ h := h.discover disk
  withLimits _ _ h := ⟨h.normal, h.files, h.excluded⟩
  alters set after alters h := by
    cases alters with
    | excludePath path => exact (set.keeps_excludePath disk path).rooted h
    | includePath path => exact (set.keeps_includePath disk path).rooted h
    | dropMissing path => exact h.dropMissing disk path

theorem Reached.rooted {set : RootFiles} (h : set.Reached) : set.Rooted := by
  refine h.of_kept (fun disk _ => kept_rooted disk) fun set rooted => ?_
  refine ⟨rooted.normal, fun file included => ?_, rooted.excluded⟩
  have none : set.dropAll.1.isIncluded file = false := isIncluded_ofRoot set.root set.limits file
  rw [none] at included
  exact absurd included Bool.false_ne_true

end RootFiles

namespace Project

variable {project before between after : Project} {disk : Disk} {root : Path}

/-! ## Alterations -/

/-- One alteration of the roots of a project. What else the project holds may be anything after
it. -/
inductive Alters (disk : Disk) (before : Project) : Project → Prop
  | keeps {after : Project} (same : ∀ place, after.files? place = before.files? place) :
      Alters disk before after
  | excludes {after : Project} (base : Path) (entries : List String)
      (same : ∀ place, after.files? place =
        (before.files? place).map fun set => set.setExclusions disk base entries) :
      Alters disk before after
  | walks {after : Project} (same : ∀ place, after.files? place =
        (before.files? place).map fun set => (set.discover disk).1) : Alters disk before after
  | limits {after : Project} (limits : DiscoveryLimits) (same : ∀ place, after.files? place =
        (before.files? place).map fun set => { set with limits := limits }) :
      Alters disk before after
  | drops (root : Path) : Alters disk before (before.dropImport root).1
  | adds {root : Path} (normal : root.IsNormal) : Alters disk before (before.addImport root)
  | puts (path : Path) {set : RootFiles} (alters : (before.filesFor path).Alters disk set) :
      Alters disk before (before.putFilesFor path set)

/-- A row of alterations. -/
abbrev Altered (disk : Disk) : Project → Project → Prop := Relation.ReflTransGen (Alters disk)

/-- What else a project holds does not count as an alteration of its roots. -/
theorem altered_of_files? (h : Altered disk before between)
    (same : ∀ place, after.files? place = between.files? place) : Altered disk before after :=
  h.tail (.keeps same)

theorem altered_importRoots (project : Project) (disk : Disk) (entries : List String) :
    Altered disk project (project.importRoots disk entries).1 :=
  importRoots_induction (Altered disk project) project disk entries .refl
    (fun _ root _ h => h.tail (.drops root))
    fun _ _ wanted h => h.tail (.adds (isNormal_of_wantedImports wanted))

theorem altered_apply (project : Project) (disk : Disk) (settings : ProjectSettings) :
    Altered disk project (project.apply disk settings).project :=
  (altered_importRoots project disk settings.imports).tail
    (.excludes project.root settings.excludePaths (files?_apply project disk settings))

theorem altered_discoverAll (project : Project) (disk : Disk) :
    Altered disk project (project.discoverAll disk).1 :=
  .single (.walks (files?_discoverAll project disk))

theorem altered_marked (project : Project) (disk : Disk) (settings : ProjectSettings) :
    Altered disk project (project.marked disk settings) :=
  altered_of_files? (altered_apply project disk settings) (files?_marked project disk settings)

/-- **Reading the settings again is a row of alterations.** -/
theorem altered_refresh (project : Project) (disk : Disk) :
    Altered disk project (project.refresh disk).project := by
  rcases refresh_cases project disk with ⟨-, nothing⟩ | ⟨stored, -, ⟨-, kept⟩ | ⟨-, walked⟩⟩
  · rw [nothing]
  · rw [kept]
    exact altered_marked project disk stored
  · rw [walked]
    exact (altered_marked project disk stored).trans (altered_discoverAll _ disk)

/-! ## Operations -/

theorem altered_changeFiles (project : Project) (disk : Disk) (path : Path)
    {change : RootFiles → RootFiles × Except ProjectError FileChanges}
    (alters : ∀ set : RootFiles, set.Alters disk (change set).1) :
    Altered disk project (project.changeFiles disk path change).project := by
  have changed := (altered_refresh project disk).tail
    (.puts path (alters ((project.refresh disk).project.filesFor path)))
  rw [changeFiles]
  dsimp only
  split
  · exact altered_of_files? changed fun place => files?_takeIn _ _ place
  · exact altered_of_files? changed fun place => files?_takeIn _ _ place

theorem altered_removeRoot (project : Project) (disk : Disk) (path : Path) :
    Altered disk project (project.removeRoot disk path).project := by
  have fresh := altered_refresh project disk
  rcases removeRoot_cases project disk path with
    ⟨-, error, refused⟩ | ⟨-, ⟨error, refused⟩ | accepted⟩
  · rw [refused]
  · rw [refused]
    exact altered_of_files? fresh fun place => files?_takeIn _ _ place
  · rw [accepted]
    exact altered_of_files? (fresh.tail (.drops path.normalize)) fun place =>
      files?_takeIn _ _ place

theorem altered_setMacros (project : Project) (disk : Disk) (given : List ProjectMacro) :
    Altered disk project (project.setMacros disk given).1 := by
  refine altered_of_files? (altered_refresh project disk) fun place => ?_
  rw [setMacros, files?_addAllWaiting, files?_takeIn]
  cases place <;> rfl

theorem altered_reload (project : Project) (disk : Disk) :
    Altered disk project (project.reload disk).1 := by
  have walked : Altered disk project (project.rewalk disk).1 := by
    rw [rewalk]
    dsimp only
    rw [applied]
    exact (altered_apply project disk _).trans (altered_discoverAll _ disk)
  rw [reload_eq]
  refine altered_of_files? walked fun place => ?_
  rw [files?_finish, files?_takeIn]

theorem altered_discover (project : Project) (disk : Disk) (limits : DiscoveryLimits) :
    Altered disk project (project.discover disk limits).1 := by
  have limited : Altered disk project (project.withLimits limits) :=
    .single (.limits limits (files?_withLimits project limits))
  rw [discover_eq]
  exact altered_of_files? (limited.trans (altered_discoverAll _ disk)) fun place =>
    files?_takeIn _ _ place

/-- A project with a root that was walked for it, put among its imports without a look at the
others. -/
def joined (project : Project) (disk : Disk) (path : Path) : Project :=
  { project with
    imports := project.imports.insert path.normalize
      ((RootFiles.ofRoot path.normalize project.principal.limits).discover disk).1 }

theorem perform_reload (project : Project) (disk : Disk) :
    (project.perform disk .reload).1 = (project.reload disk).1 := by
  simp only [perform]

theorem perform_discover (project : Project) (disk : Disk) (limits : DiscoveryLimits) :
    (project.perform disk (.discover limits)).1 = (project.discover disk limits).1 := by
  simp only [perform]

/-- **Every operation is a row of alterations**, but for a root that is added on request. -/
theorem perform_alters (project : Project) (disk : Disk) (operation : Operation) :
    ((∀ path, operation = .addRoot path → project.reads disk operation = false) ∧
        Altered disk project (project.perform disk operation).1) ∨
      ∃ path, operation = .addRoot path ∧ project.reads disk operation = true ∧
        ∀ place, (project.perform disk operation).1.files? place =
          ((project.refresh disk).project.joined disk path).files? place := by
  cases operation with
  | excludePath path =>
      exact .inl ⟨nofun, altered_changeFiles project disk path fun _ => .excludePath path⟩
  | includePath path =>
      exact .inl ⟨nofun, altered_changeFiles project disk path fun _ => .includePath path⟩
  | removeRoot path => exact .inl ⟨nofun, altered_removeRoot project disk path⟩
  | setMacros macros => exact .inl ⟨nofun, altered_setMacros project disk macros⟩
  | reload =>
      rw [perform_reload]
      exact .inl ⟨nofun, altered_reload project disk⟩
  | discover limits =>
      rw [perform_discover]
      exact .inl ⟨nofun, altered_discover project disk limits⟩
  | addRoot path =>
      rw [perform]
      rcases addRoot_cases project disk path with
        ⟨unread, error, refused⟩ | ⟨reads, _, rfl, accepted⟩
      · rw [refused]
        exact .inl ⟨fun _ _ => unread, .refl⟩
      · refine .inr ⟨path, rfl, reads, fun place => ?_⟩
        rw [accepted]
        exact files?_takeIn _ _ place

theorem altered_dropMissing (project : Project) (disk : Disk) (path : Path) :
    Altered disk project (project.dropMissing disk path).1 := by
  rw [dropMissing]
  dsimp only
  split
  · have dropped : (project.filesFor path).Alters disk
        ((project.filesFor path).dropMissing disk path).1 := .dropMissing path
    have put : Altered disk project
        (project.putFilesFor path ((project.filesFor path).dropMissing disk path).1) :=
      .single (.puts path dropped)
    exact altered_of_files? put fun place => by cases place <;> rfl
  · exact .refl

/-! ## What alterations keep -/

/-- Something holds of the files of every root. -/
def Everywhere (project : Project) (holds : RootFiles → Prop) : Prop :=
  ∀ place set, project.files? place = some set → holds set

variable {holds : RootFiles → Prop}

theorem Everywhere.of_files? (h : before.Everywhere holds)
    (same : ∀ place, after.files? place = before.files? place) : after.Everywhere holds :=
  fun place set found => h place set ((same place).symm.trans found)

theorem Everywhere.map (h : before.Everywhere holds) {change : RootFiles → RootFiles}
    (same : ∀ place, after.files? place = (before.files? place).map change)
    (kept : ∀ set, holds set → holds (change set)) : after.Everywhere holds := by
  intro place set found
  rw [same] at found
  obtain ⟨old, stored, rfl⟩ := Option.map_eq_some_iff.1 found
  exact kept old (h place old stored)

theorem Everywhere.insert (h : project.Everywhere holds) (root : Path) {set : RootFiles}
    (new : holds set) :
    Everywhere { project with imports := project.imports.insert root set } holds := by
  intro place stored found
  rw [files?_insert] at found
  split at found
  · rw [← Option.some.inj found]
    exact new
  · exact h place stored found

theorem Everywhere.alters (h : before.Everywhere holds) (kept : RootFiles.Kept disk holds)
    (alters : Alters disk before after) : after.Everywhere holds := by
  cases alters with
  | keeps same => exact h.of_files? same
  | excludes base entries same => exact h.map same fun set => kept.setExclusions set base entries
  | walks same => exact h.map same kept.discover
  | limits limits same => exact h.map same fun set => kept.withLimits set limits
  | drops root => exact fun place set found => h place set (files?_dropImport found)
  | adds normal =>
      rw [addImport]
      split
      · exact h
      · exact h.insert _ (kept.ofRoot _ _)
  | puts path alters =>
      intro place set found
      rw [files?_putFilesFor] at found
      split at found
      · rw [← Option.some.inj found]
        exact kept.alters _ _ alters (h _ _ (files?_importAbove? path))
      · exact h place set found

theorem Everywhere.altered (h : before.Everywhere holds) (kept : RootFiles.Kept disk holds)
    (altered : Altered disk before after) : after.Everywhere holds := by
  induction altered with
  | refl => exact h
  | tail _ alters ih => exact ih.alters kept alters

/-- **What is kept of the files of a root is kept at every root by every operation.** -/
theorem Everywhere.perform (h : project.Everywhere holds) (kept : RootFiles.Kept disk holds)
    (operation : Operation) : (project.perform disk operation).1.Everywhere holds := by
  rcases perform_alters project disk operation with ⟨-, altered⟩ | ⟨path, -, -, joined⟩
  · exact h.altered kept altered
  · have fresh := h.altered kept (altered_refresh project disk)
    exact (fresh.insert path.normalize (kept.discover _ (kept.ofRoot _ _))).of_files? joined

theorem everywhere_ofRoot {limits : DiscoveryLimits} (kept : RootFiles.Kept disk holds) :
    (ofRoot root limits).Everywhere holds := by
  intro place set found
  cases place with
  | none =>
      rw [← Option.some.inj found]
      exact kept.ofRoot _ _
  | some other =>
      rw [files?, ofRoot, Std.ExtTreeMap.getElem?_empty] at found
      cases found

theorem everywhere_openRoot {limits : DiscoveryLimits} {followUp : FollowUp}
    (opens : openRoot disk root limits = .ok (project, followUp))
    (kept : RootFiles.Kept disk holds) : project.Everywhere holds := by
  obtain ⟨settings, delta, rfl⟩ := eq_of_openRoot opens
  have start : (ofRoot root.normalize limits).Everywhere holds := everywhere_ofRoot kept
  refine (start.altered kept ((altered_apply _ disk settings).trans
    (altered_discoverAll _ disk))).of_files? fun place => ?_
  rw [files?_addAllWaiting, files?_takeIn]

/-- Alterations move the principal root nowhere. -/
theorem root_of_alters (alters : Alters disk before after) : after.root = before.root := by
  have same : ∀ {change : RootFiles → RootFiles}, (∀ place, after.files? place =
      (before.files? place).map change) → (∀ set, (change set).root = set.root) →
      after.root = before.root := by
    intro change same stays
    have principal : after.principal = change before.principal := Option.some.inj (same none)
    rw [Project.root, principal, stays]
    rfl
  cases alters with
  | keeps same' => exact same (fun place => by rw [same', Option.map_id']) fun _ => rfl
  | excludes base entries same' => exact same same' fun _ => rfl
  | walks same' => exact same same' fun _ => rfl
  | limits limits same' => exact same same' fun _ => rfl
  | drops root =>
      rw [dropImport]
      split <;> rfl
  | adds normal => rw [Project.root, principal_addImport, Project.root]
  | puts path alters =>
      have stays := alters.root
      rw [Project.root, Project.root, putFilesFor]
      split
      · rfl
      · rename_i above
        rw [filesFor, above] at stays
        exact stays

theorem root_of_altered (altered : Altered disk before after) : after.root = before.root := by
  induction altered with
  | refl => rfl
  | tail _ alters ih => rw [root_of_alters alters, ih]

/-- Reading the settings again moves the principal root nowhere. -/
theorem root_refresh (project : Project) (disk : Disk) :
    (project.refresh disk).project.root = project.root :=
  root_of_altered (altered_refresh project disk)

/-- **No operation moves the principal root.** -/
theorem root_perform (project : Project) (disk : Disk) (operation : Operation) :
    (project.perform disk operation).1.root = project.root := by
  rcases perform_alters project disk operation with ⟨-, altered⟩ | ⟨path, -, -, joined⟩
  · exact root_of_altered altered
  · have principal : (project.perform disk operation).1.principal =
        (project.refresh disk).project.principal := Option.some.inj (joined none)
    rw [Project.root, principal, ← Project.root, root_refresh]

/-- What every alteration keeps, a row of them keeps. -/
theorem kept_of_altered {holds : Project → Prop}
    (alters : ∀ before after, Alters disk before after → holds before → holds after)
    (altered : Altered disk before after) (h : holds before) : holds after := by
  induction altered with
  | refl => exact h
  | tail _ one ih => exact alters _ _ one ih

/-- **What every alteration keeps, and every root that is added on request**, holds of all projects
that can come of an opened one. -/
theorem Reachable.keeps {holds : Project → Prop} (h : project.Reachable)
    (start : ∀ root limits, holds (ofRoot root limits))
    (alters : ∀ disk before after, Alters disk before after → holds before → holds after)
    (joins : ∀ (project : Project) disk path, project.reads disk (.addRoot path) = true →
      holds (project.refresh disk).project →
        holds ((project.refresh disk).project.joined disk path)) : holds project := by
  induction h with
  | @opened disk root limits project followUp opens =>
      obtain ⟨settings, delta, rfl⟩ := eq_of_openRoot opens
      have walked := (altered_apply (ofRoot root.normalize limits) disk settings).trans
        (altered_discoverAll _ disk)
      refine kept_of_altered (alters disk) (altered_of_files? walked fun place => ?_) (start _ _)
      rw [files?_addAllWaiting, files?_takeIn]
  | @performed project disk operation _ ih =>
      rcases perform_alters project disk operation with ⟨-, altered⟩ | ⟨path, rfl, reads, joined⟩
      · exact kept_of_altered (alters disk) altered ih
      · have fresh := kept_of_altered (alters disk) (altered_refresh project disk) ih
        exact alters disk _ _ (.keeps joined) (joins project disk path reads fresh)
  | @dropped project disk path _ ih =>
      exact kept_of_altered (alters disk) (altered_dropMissing project disk path) ih
  | waits path _ ih => exact alters default _ _ (.keeps fun place => by cases place <;> rfl) ih
  | allWait _ ih => exact alters default _ _ (.keeps (files?_addAllWaiting _)) ih
  | handedOver _ ih => exact alters default _ _ (.keeps fun place => by cases place <;> rfl) ih

/-! ## Steps -/

/-- One thing that happens to an open project, with the disk as it is by then. -/
inductive Step where
  | perform (disk : Disk) (operation : Operation)
  | dropMissing (disk : Disk) (path : Path)
  | addWaiting (path : Path)
  | addAllWaiting
  | takeWaiting

/-- The disk that a step looks at. -/
def Step.disk? : Step → Option Disk
  | .perform disk _ | .dropMissing disk _ => some disk
  | .addWaiting _ | .addAllWaiting | .takeWaiting => none

/-- The project after a step. -/
def step (project : Project) : Step → Project
  | .perform disk operation => (project.perform disk operation).1
  | .dropMissing disk path => (project.dropMissing disk path).1
  | .addWaiting path => project.addWaiting path
  | .addAllWaiting => project.addAllWaiting
  | .takeWaiting => project.takeWaiting.1

/-- The project after a row of steps. -/
def afterSteps (project : Project) (steps : List Step) : Project := steps.foldl step project

theorem afterSteps_concat (project : Project) (steps : List Step) (last : Step) :
    project.afterSteps (steps ++ [last]) = (project.afterSteps steps).step last := by
  rw [afterSteps, List.foldl_append]
  rfl

/-- Steps lead to projects that can come of an opened one. -/
theorem Reachable.step (h : project.Reachable) (step : Step) : (project.step step).Reachable := by
  cases step with
  | perform disk operation => exact .performed disk operation h
  | dropMissing disk path => exact .dropped disk path h
  | addWaiting path => exact .waits path h
  | addAllWaiting => exact .allWait h
  | takeWaiting => exact .handedOver h

theorem Reachable.afterSteps (h : project.Reachable) (steps : List Step) :
    (project.afterSteps steps).Reachable :=
  List.foldlRecOn (motive := Reachable) steps Project.step h fun _ h step _ => h.step step

/-- Whether a project comes of an opened one by a row of steps. -/
def CameBySteps (project : Project) : Prop :=
  ∃ (disk : Disk) (root : Path) (limits : DiscoveryLimits) (start : Project) (followUp : FollowUp)
    (steps : List Step), openRoot disk root limits = .ok (start, followUp) ∧
      start.afterSteps steps = project

theorem CameBySteps.step (h : project.CameBySteps) (step : Step) :
    (project.step step).CameBySteps := by
  obtain ⟨disk, root, limits, start, followUp, steps, opens, rfl⟩ := h
  exact ⟨disk, root, limits, start, followUp, steps ++ [step], opens,
    afterSteps_concat start steps step⟩

/-- **Every project that can come of an opened one does so by a row of steps.** -/
theorem Reachable.cameBySteps (h : project.Reachable) : project.CameBySteps := by
  induction h with
  | opened opens => exact ⟨_, _, _, _, _, [], opens, rfl⟩
  | performed disk operation _ ih => exact ih.step (.perform disk operation)
  | dropped disk path _ ih => exact ih.step (.dropMissing disk path)
  | waits path _ ih => exact ih.step (.addWaiting path)
  | allWait _ ih => exact ih.step .addAllWaiting
  | handedOver _ ih => exact ih.step .takeWaiting

theorem files?_addWaiting (project : Project) (path : Path) (place : Option Path) :
    (project.addWaiting path).files? place = project.files? place := by
  cases place <;> rfl

theorem files?_takeWaiting (project : Project) (place : Option Path) :
    project.takeWaiting.1.files? place = project.files? place := by
  cases place <;> rfl

theorem Everywhere.step (h : project.Everywhere holds) (step : Step)
    (kept : ∀ disk, step.disk? = some disk → RootFiles.Kept disk holds) :
    (project.step step).Everywhere holds := by
  cases step with
  | perform disk operation => exact h.perform (kept disk rfl) operation
  | dropMissing disk path => exact h.altered (kept disk rfl) (altered_dropMissing project disk path)
  | addWaiting path => exact h.of_files? (files?_addWaiting project path)
  | addAllWaiting => exact h.of_files? (files?_addAllWaiting project)
  | takeWaiting => exact h.of_files? (files?_takeWaiting project)

/-- **What is kept on every disk on the way holds at every root in the end.** -/
theorem Everywhere.afterSteps (h : project.Everywhere holds) {steps : List Step}
    (kept : ∀ step ∈ steps, ∀ disk, step.disk? = some disk → RootFiles.Kept disk holds) :
    (project.afterSteps steps).Everywhere holds :=
  List.foldlRecOn (motive := fun project : Project => project.Everywhere holds) steps Project.step h
    fun _ h step listed => h.step step (kept step listed)

/-- What is kept on every disk holds at every root of every project. -/
theorem Reachable.everywhere (h : project.Reachable)
    (kept : ∀ disk, RootFiles.Kept disk holds) : project.Everywhere holds := by
  obtain ⟨disk, root, limits, start, followUp, steps, opens, rfl⟩ := h.cameBySteps
  exact (everywhere_openRoot opens (kept disk)).afterSteps fun _ _ disk _ => kept disk

end Project

end SvServer
