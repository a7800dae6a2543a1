import SvServer.Proofs.Project.Applying

/-!
# What becomes of a project

A project is opened, and then operations are performed on it, each with whatever is on the disk by
then: the settings file and the folders may change in any way between two operations. Between
operations files are told to wait or are handed over, and files of closed documents are dropped.
Every project that comes of this is in order.
-/

namespace SvServer.Project

/-- An operation on an open project. -/
inductive Operation where
  | excludePath (path : Path)
  | includePath (path : Path)
  | addRoot (path : Path)
  | removeRoot (path : Path)
  | setMacros (macros : List ProjectMacro)
  /-- The settings are read again and all roots are walked. -/
  | reload
  /-- All roots are walked within new limits. -/
  | discover (limits : DiscoveryLimits)

/-- Performs an operation. Gives the project after it and what is handed over to be done; a refused
operation hands nothing over. -/
def perform (project : Project) (disk : Disk) : Operation → Project × Option FollowUp
  | .excludePath path =>
    let changed := project.excludePath disk path
    (changed.project, changed.followUp.toOption)
  | .includePath path =>
    let changed := project.includePath disk path
    (changed.project, changed.followUp.toOption)
  | .addRoot path =>
    let changed := project.addRoot disk path
    (changed.project, changed.followUp.toOption)
  | .removeRoot path =>
    let changed := project.removeRoot disk path
    (changed.project, changed.followUp.toOption)
  | .setMacros macros => ((project.setMacros disk macros).1, none)
  | .reload =>
    let outcome := project.reload disk
    (outcome.1, some outcome.2)
  | .discover limits =>
    let outcome := project.discover disk limits
    (outcome.1, some outcome.2)

/-- What can become of a project. The disk is another one at every step. -/
inductive Reachable : Project → Prop
  | opened {disk : Disk} {root : Path} {limits : DiscoveryLimits} {project : Project}
      {followUp : FollowUp} (opens : openRoot disk root limits = .ok (project, followUp)) :
      Reachable project
  | performed {project : Project} (disk : Disk) (operation : Operation)
      (before : Reachable project) : Reachable (project.perform disk operation).1
  | dropped {project : Project} (disk : Disk) (path : Path) (before : Reachable project) :
      Reachable (project.dropMissing disk path).1
  | waits {project : Project} (path : Path) (before : Reachable project) :
      Reachable (project.addWaiting path)
  | allWait {project : Project} (before : Reachable project) : Reachable project.addAllWaiting
  | handedOver {project : Project} (before : Reachable project) : Reachable project.takeWaiting.1

variable {project : Project}

/-! ## What operations come to -/

/-- A project that was just opened was walked under its settings, and all that it includes
waits. -/
theorem eq_of_openRoot {disk : Disk} {root : Path} {limits : DiscoveryLimits}
    {followUp : FollowUp} (opens : openRoot disk root limits = .ok (project, followUp)) :
    ∃ settings delta, project = ((((ofRoot root.normalize limits).apply disk
      settings).project.discoverAll disk).1.takeIn delta).1.addAllWaiting := by
  rw [openRoot] at opens
  dsimp only at opens
  split at opens
  · cases opens
  · exact ⟨_, _, (Prod.mk.inj (Except.ok.inj opens)).1.symm⟩

/-- Whether an operation gets as far as reading the settings, unless it walks all roots anyway. -/
def reads (project : Project) (disk : Disk) : Operation → Bool
  | .addRoot path =>
    disk.pathExists path.normalize && !project.covers path.normalize &&
      !project.hasRootUnder path.normalize && disk.isFolder path.normalize
  | .removeRoot path => disk.pathExists path.normalize && !(path.normalize == project.root)
  | .reload | .discover _ => false
  | .excludePath _ | .includePath _ | .setMacros _ => true

/-- **What adding a root comes to**: it is refused at once, or the root is walked and added. -/
theorem addRoot_cases (project : Project) (disk : Disk) (path : Path) :
    (project.reads disk (.addRoot path) = false ∧
      ∃ error, project.addRoot disk path = ⟨project, disk, .error error⟩) ∨
    project.reads disk (.addRoot path) = true ∧ ∃ added : RootFiles,
      added = .ofRoot path.normalize (project.refresh disk).project.principal.limits ∧
      project.addRoot disk path = .accept
        { (project.refresh disk).project with
          imports := (project.refresh disk).project.imports.insert path.normalize
            (added.discover disk).1 }
        disk (project.refresh disk).stored
        ((project.refresh disk).delta.merge (added.discover disk).2) := by
  rw [addRoot, Project.reads]
  dsimp only
  cases disk.pathExists path.normalize with
  | false => exact .inl ⟨rfl, _, rfl⟩
  | true =>
      cases project.covers path.normalize with
      | true => exact .inl ⟨rfl, _, rfl⟩
      | false =>
          cases project.hasRootUnder path.normalize with
          | true => exact .inl ⟨rfl, _, rfl⟩
          | false =>
              cases disk.isFolder path.normalize with
              | false => exact .inl ⟨rfl, _, rfl⟩
              | true => exact .inr ⟨rfl, _, rfl, rfl⟩

/-- **What dropping a root comes to**: it is refused, before or after the settings are read, or the
root is dropped. -/
theorem removeRoot_cases (project : Project) (disk : Disk) (path : Path) :
    (project.reads disk (.removeRoot path) = false ∧
      ∃ error, project.removeRoot disk path = ⟨project, disk, .error error⟩) ∨
    project.reads disk (.removeRoot path) = true ∧
      ((∃ error, project.removeRoot disk path =
        .refuse (project.refresh disk).project disk (project.refresh disk).delta error) ∨
      project.removeRoot disk path = .accept
        ((project.refresh disk).project.dropImport path.normalize).1 disk
        (project.refresh disk).stored ((project.refresh disk).delta.merge
          ((project.refresh disk).project.dropImport path.normalize).2)) := by
  rw [removeRoot, Project.reads]
  dsimp only
  cases disk.pathExists path.normalize with
  | false => exact .inl ⟨rfl, _, rfl⟩
  | true =>
      cases path.normalize == project.root with
      | true => exact .inl ⟨rfl, _, rfl⟩
      | false =>
          cases (project.refresh disk).project.imports.contains path.normalize with
          | false => exact .inr ⟨rfl, .inl ⟨_, rfl⟩⟩
          | true => exact .inr ⟨rfl, .inr rfl⟩

/-- Tells every included file to wait, if that is called for. -/
def finish (project : Project) (all : Bool) : Project :=
  if all then project.addAllWaiting else project

/-- The project once the settings on the disk were applied to it. -/
def applied (project : Project) (disk : Disk) : Applied :=
  project.apply disk (ProjectSettings.readOrEmpty disk project.root)

/-- The walk of all roots under the settings on the disk. -/
def rewalk (project : Project) (disk : Disk) : Project × FileChanges :=
  (((project.applied disk).project.discoverAll disk).1,
    (project.applied disk).delta.merge ((project.applied disk).project.discoverAll disk).2)

theorem reload_eq (project : Project) (disk : Disk) :
    project.reload disk =
      (((project.rewalk disk).1.takeIn (project.rewalk disk).2).1.finish
          (project.applied disk).settingsChanged,
        ((project.rewalk disk).1.takeIn (project.rewalk disk).2).2) := by
  rw [reload, rewalk, applied]
  generalize project.apply disk (ProjectSettings.readOrEmpty disk project.root) = applied
  rcases applied.project.discoverAll disk with ⟨walked, delta⟩
  rfl

/-- The project with other limits for its walks. -/
def withLimits (project : Project) (limits : DiscoveryLimits) : Project :=
  { project with
    principal := { project.principal with limits := limits }
    imports := project.imports.map fun _ set => { set with limits := limits } }

theorem discover_eq (project : Project) (disk : Disk) (limits : DiscoveryLimits) :
    project.discover disk limits = ((project.withLimits limits).discoverAll disk).1.takeIn
      ((project.withLimits limits).discoverAll disk).2 := rfl

/-! ## Order -/

/-- Files that wait do not matter for the order of a project. -/
theorem files?_addAllWaiting (project : Project) (place : Option Path) :
    project.addAllWaiting.files? place = project.files? place := by
  cases place <;> rfl

theorem files?_takeIn (project : Project) (delta : FileChanges) (place : Option Path) :
    (project.takeIn delta).1.files? place = project.files? place := by
  cases place <;> rfl

theorem consistent_ofRoot (root : Path) (limits : DiscoveryLimits) :
    (ofRoot root limits).Consistent := by
  have only : ∀ place set, (ofRoot root limits).files? place = some set →
      set = .ofRoot root limits := by
    intro place set found
    cases place with
    | none => exact (Option.some.inj found).symm
    | some root =>
        rw [files?, ofRoot, Std.ExtTreeMap.getElem?_empty] at found
        cases found
  refine ⟨⟨fun place set found => ?_, fun root set found => ?_⟩, fun place set found => ?_⟩
  · rw [only place set found]
    exact RootFiles.rooted_ofRoot root limits
  · rw [ofRoot, Std.ExtTreeMap.getElem?_empty] at found
    cases found
  · rw [only place set found]
    intro file included
    rw [RootFiles.isIncluded_ofRoot] at included
    exact absurd included Bool.false_ne_true

/-- Settings that are applied before all roots are walked. -/
theorem Rooted.consistent_walked (h : project.Rooted) (disk : Disk) (settings : ProjectSettings) :
    ((project.apply disk settings).project.discoverAll disk).1.Consistent :=
  (h.apply disk settings).consistent_discoverAll disk

/-- **A project that was just opened is in order.** -/
theorem consistent_openRoot {disk : Disk} {root : Path} {limits : DiscoveryLimits}
    {followUp : FollowUp} (opens : openRoot disk root limits = .ok (project, followUp)) :
    project.Consistent := by
  obtain ⟨settings, delta, rfl⟩ := eq_of_openRoot opens
  have walked := (consistent_ofRoot root.normalize limits).toRooted.consistent_walked disk settings
  refine walked.of_files? fun place => ?_
  rw [files?_addAllWaiting, files?_takeIn]

/-- An operation on the files of one root. -/
theorem Consistent.changeFiles (h : project.Consistent) (disk : Disk) (path : Path)
    {change : RootFiles → RootFiles × Except ProjectError FileChanges}
    (keeps : ∀ set : RootFiles, set.Keeps (change set).1) :
    (project.changeFiles disk path change).project.Consistent := by
  have changed := (h.refresh disk).putFilesFor (keeps ((project.refresh disk).project.filesFor path))
  rw [Project.changeFiles]
  dsimp only
  split
  · exact changed.of_files? fun place => files?_takeIn _ _ place
  · exact changed.of_files? fun place => files?_takeIn _ _ place

theorem Consistent.excludePath (h : project.Consistent) (disk : Disk) (path : Path) :
    (project.excludePath disk path).project.Consistent := by
  rw [Project.excludePath]
  exact h.changeFiles disk path fun set => set.keeps_excludePath disk path

theorem Consistent.includePath (h : project.Consistent) (disk : Disk) (path : Path) :
    (project.includePath disk path).project.Consistent := by
  rw [Project.includePath]
  exact h.changeFiles disk path fun set => set.keeps_includePath disk path

theorem Consistent.addRoot (h : project.Consistent) (disk : Disk) (path : Path) :
    (project.addRoot disk path).project.Consistent := by
  rcases addRoot_cases project disk path with ⟨-, error, refused⟩ | ⟨-, added, fresh, accepted⟩
  · rw [refused]
    exact h
  · rw [accepted]
    have rooted : added.Rooted := by
      rw [fresh]
      exact RootFiles.rooted_ofRoot path.normalize _
    have key : ((added.discover disk).1.root == path.normalize) = true := by
      rw [fresh]
      exact Path.beq_iff.2 path.isNormal_normalize
    exact ((h.refresh disk).insert (rooted.discover disk) (RootFiles.exact_discover _ disk)
      key).of_files? fun place => files?_takeIn _ _ place

theorem Consistent.removeRoot (h : project.Consistent) (disk : Disk) (path : Path) :
    (project.removeRoot disk path).project.Consistent := by
  rcases removeRoot_cases project disk path with
    ⟨-, error, refused⟩ | ⟨-, ⟨error, refused⟩ | accepted⟩
  · rw [refused]
    exact h
  · rw [refused]
    exact (h.refresh disk).of_files? fun place => files?_takeIn _ _ place
  · rw [accepted]
    exact ((h.refresh disk).dropImport path.normalize).of_files? fun place =>
      files?_takeIn _ _ place

theorem Consistent.setMacros (h : project.Consistent) (disk : Disk) (given : List ProjectMacro) :
    (project.setMacros disk given).1.Consistent := by
  refine (h.refresh disk).of_files? fun place => ?_
  rw [Project.setMacros, files?_addAllWaiting, files?_takeIn]
  cases place <;> rfl

theorem files?_finish (project : Project) (all : Bool) (place : Option Path) :
    (project.finish all).files? place = project.files? place := by
  cases all with
  | false => rfl
  | true => exact files?_addAllWaiting project place

theorem Consistent.reload (h : project.Consistent) (disk : Disk) :
    (project.reload disk).1.Consistent := by
  rw [reload_eq]
  have walked : (project.rewalk disk).1.Consistent := by
    rw [rewalk]
    dsimp only
    rw [applied]
    exact h.toRooted.consistent_walked disk (ProjectSettings.readOrEmpty disk project.root)
  refine walked.of_files? fun place => ?_
  rw [files?_finish, files?_takeIn]

theorem files?_withLimits (project : Project) (limits : DiscoveryLimits) (place : Option Path) :
    (project.withLimits limits).files? place =
      (project.files? place).map fun set => { set with limits := limits } :=
  files?_map project (fun set => { set with limits := limits }) place

theorem Consistent.discover (h : project.Consistent) (disk : Disk) (limits : DiscoveryLimits) :
    (project.discover disk limits).1.Consistent := by
  have limited : (project.withLimits limits).Rooted :=
    h.toRooted.map (files?_withLimits project limits) (fun _ => rfl)
      fun _ h => ⟨h.normal, h.files, h.excluded⟩
  rw [discover_eq]
  exact (limited.consistent_discoverAll disk).of_files? fun place => files?_takeIn _ _ place

/-- **Every operation keeps a project in order**, also when it is refused. -/
theorem Consistent.perform (h : project.Consistent) (disk : Disk) (operation : Operation) :
    (project.perform disk operation).1.Consistent := by
  cases operation <;> simp only [Project.perform]
  case excludePath path => exact h.excludePath disk path
  case includePath path => exact h.includePath disk path
  case addRoot path => exact h.addRoot disk path
  case removeRoot path => exact h.removeRoot disk path
  case setMacros macros => exact h.setMacros disk macros
  case reload => exact h.reload disk
  case discover limits => exact h.discover disk limits

theorem Consistent.dropMissing (h : project.Consistent) (disk : Disk) (path : Path) :
    (project.dropMissing disk path).1.Consistent := by
  rw [Project.dropMissing]
  dsimp only
  split
  · have keeps : (project.filesFor path).Keeps ((project.filesFor path).dropMissing disk path).1 :=
      ⟨by obtain ⟨files, after⟩ := RootFiles.dropMissing_fst (project.filesFor path) disk path
          rw [after],
        fun h => h.dropMissing disk path, fun _ h => h.dropMissing disk path⟩
    exact (h.putFilesFor keeps).of_files? fun place => by cases place <;> rfl
  · exact h

/-- **Every project that operations lead to is in order.** -/
theorem Reachable.consistent (h : project.Reachable) : project.Consistent := by
  induction h with
  | opened opens => exact consistent_openRoot opens
  | performed disk operation _ ih => exact ih.perform disk operation
  | dropped disk path _ ih => exact ih.dropMissing disk path
  | waits path _ ih => exact ih.of_files? fun place => by cases place <;> rfl
  | allWait _ ih => exact ih.of_files? fun place => files?_addAllWaiting _ place
  | handedOver _ ih => exact ih.of_files? fun place => by cases place <;> rfl

end SvServer.Project
