import SvServer.Proofs.Project.Refusals

/-!
# Changes that are saved

A change of the settings that succeeds writes them anew, over what was read just before, and what it
writes are the settings that the project has after it. The macros among them make the same table
when they are read, because no table is in use that was not made of a list.
-/

namespace SvServer.Project

variable {project after a b : Project} {disk saved : Disk}

/-! ## Macros -/

/-- Whether the macros of a project are those of some list. -/
def ListsMacros (project : Project) : Prop := ∃ given, project.macros = .ofList given

theorem ListsMacros.of_macros (h : a.ListsMacros) (same : b.macros = a.macros) : b.ListsMacros := by
  obtain ⟨given, macros⟩ := h
  exact ⟨given, same.trans macros⟩

theorem macros_accept (project : Project) (disk : Disk) (stored : ProjectSettings)
    (delta : FileChanges) :
    (Changed.accept project disk stored delta).project.macros = project.macros := rfl

theorem macros_refuse (project : Project) (disk : Disk) (delta : FileChanges)
    (error : ProjectError) :
    (Changed.refuse project disk delta error).project.macros = project.macros := rfl

theorem macros_finish (project : Project) (all : Bool) :
    (project.finish all).macros = project.macros := by
  cases all <;> rfl

theorem macros_takeIn (project : Project) (delta : FileChanges) :
    (project.takeIn delta).1.macros = project.macros := rfl

theorem macros_addAllWaiting (project : Project) :
    project.addAllWaiting.macros = project.macros := rfl

theorem listsMacros_apply (project : Project) (disk : Disk) (settings : ProjectSettings) :
    (project.apply disk settings).project.ListsMacros := ⟨settings.macros, rfl⟩

theorem ListsMacros.refresh (h : project.ListsMacros) (disk : Disk) :
    (project.refresh disk).project.ListsMacros := by
  rcases beside_refresh project disk with same | ⟨stored, same⟩
  · exact h.of_macros (macros_of_beside same)
  · exact (listsMacros_apply project disk stored).of_macros (macros_of_beside same)

theorem ListsMacros.changeFiles (h : project.ListsMacros) (disk : Disk) (path : Path)
    {change : RootFiles → RootFiles × Except ProjectError FileChanges}
    (answers : ∀ set : RootFiles, set.Answers (change set)) :
    (project.changeFiles disk path change).project.ListsMacros := by
  obtain ⟨set, ⟨delta, -, -, same⟩ | ⟨error, -, -, same⟩⟩ :=
    changeFiles_cases project disk path answers
  · rw [same]
    refine (h.refresh disk).of_macros ?_
    rw [macros_accept, macros_of_beside (beside_putFilesFor _ path set)]
  · rw [same]
    refine (h.refresh disk).of_macros ?_
    rw [macros_refuse, macros_of_beside (beside_putFilesFor _ path set)]

/-- Every operation keeps the macros or takes those of a list. -/
theorem ListsMacros.perform (h : project.ListsMacros) (disk : Disk) (operation : Operation) :
    (project.perform disk operation).1.ListsMacros := by
  have fresh := h.refresh disk
  cases operation with
  | excludePath path =>
      rw [Project.perform]
      exact h.changeFiles disk path fun set => set.answers_excludePath disk path
  | includePath path =>
      rw [Project.perform]
      exact h.changeFiles disk path fun set => set.answers_includePath disk path
  | addRoot path =>
      rw [Project.perform]
      rcases addRoot_cases project disk path with ⟨-, _, same⟩ | ⟨-, _, -, same⟩
      · rwa [same]
      · rw [same]
        refine fresh.of_macros ?_
        rw [macros_accept]
  | removeRoot path =>
      rw [Project.perform]
      rcases removeRoot_cases project disk path with ⟨-, _, same⟩ | ⟨-, ⟨_, same⟩ | same⟩
      · rwa [same]
      · rw [same]
        refine fresh.of_macros ?_
        rw [macros_refuse]
      · rw [same]
        refine fresh.of_macros ?_
        rw [macros_accept, macros_of_beside (beside_dropImport _ path.normalize)]
  | setMacros given =>
      refine ⟨given, ?_⟩
      rw [Project.perform, setMacros]
      dsimp only
      rw [macros_addAllWaiting, macros_takeIn]
  | reload =>
      rw [perform_reload, reload_eq]
      refine (listsMacros_apply project disk
        (ProjectSettings.readOrEmpty disk project.root)).of_macros ?_
      rw [macros_finish, macros_takeIn, macros_of_beside (beside_rewalk project disk), applied]
  | discover limits =>
      rw [perform_discover, discover_eq]
      refine h.of_macros ?_
      rw [macros_takeIn, macros_of_beside (beside_discoverAll _ disk)]
      rfl

/-- **The macros of every project are those of some list.** -/
theorem Reachable.listsMacros (h : project.Reachable) : project.ListsMacros := by
  induction h with
  | @opened disk root limits project followUp opens =>
      obtain ⟨settings, delta, rfl⟩ := eq_of_openRoot opens
      refine (listsMacros_apply (ofRoot root.normalize limits) disk settings).of_macros ?_
      rw [macros_addAllWaiting, macros_takeIn, macros_of_beside (beside_discoverAll _ disk)]
  | performed disk operation _ ih => exact ih.perform disk operation
  | dropped disk path _ ih => exact ih.of_macros (macros_dropMissing _ disk path)
  | waits path _ ih => exact ih
  | allWait _ ih => exact ih
  | handedOver _ ih => exact ih

/-! ## Changes that are written -/

/-- The project and the disk after a change of the settings that succeeded; none for what is refused
and for what changes no settings. -/
def accepted? (project : Project) (disk : Disk) : Operation → Option (Project × Disk)
  | .setMacros given => some ((project.setMacros disk given).1, (project.setMacros disk given).2.1)
  | operation => (project.changed? disk operation).bind fun changed =>
      changed.followUp.toOption.map fun _ => (changed.project, changed.disk)

/-- What waits and what was told is not stored. -/
theorem saveSettings_takeIn (project : Project) (delta : FileChanges) (disk : Disk)
    (base : ProjectSettings) :
    (project.takeIn delta).1.saveSettings disk base = project.saveSettings disk base := rfl

theorem saveSettings_addAllWaiting (project : Project) (disk : Disk) (base : ProjectSettings) :
    project.addAllWaiting.saveSettings disk base = project.saveSettings disk base := rfl

theorem saved_of_accept {changed : Changed} {stored : ProjectSettings} {delta : FileChanges}
    (same : changed = .accept project disk stored delta) :
    changed.disk = changed.project.saveSettings disk stored := by
  rw [same]
  exact (saveSettings_takeIn project delta disk stored).symm

theorem saved_changeFiles {path : Path}
    {change : RootFiles → RootFiles × Except ProjectError FileChanges}
    (answers : ∀ set : RootFiles, set.Answers (change set)) {followUp : FollowUp}
    (done : (project.changeFiles disk path change).followUp = .ok followUp) :
    (project.changeFiles disk path change).disk =
      (project.changeFiles disk path change).project.saveSettings disk
        (project.refresh disk).stored := by
  obtain ⟨set, ⟨delta, -, -, same⟩ | ⟨error, -, -, same⟩⟩ :=
    changeFiles_cases project disk path answers
  · exact saved_of_accept same
  · rw [same] at done
    cases done

/-- What is left of a change once it is known to have succeeded. -/
theorem exists_ok_of_accepted {changed : Changed}
    (accepted : (changed.followUp.toOption.map fun _ => (changed.project, changed.disk)) =
      some (after, saved)) :
    ∃ followUp, changed.followUp = .ok followUp ∧ changed.project = after ∧
      changed.disk = saved := by
  obtain ⟨project, disk, outcome⟩ := changed
  cases outcome with
  | error error => cases accepted
  | ok followUp =>
      obtain ⟨rfl, rfl⟩ := Prod.mk.inj (Option.some.inj accepted)
      exact ⟨followUp, rfl, rfl, rfl⟩

/-- **A change that succeeded has saved the settings** that the project has after it, over those that
were read. -/
theorem saved_of_accepted {operation : Operation}
    (accepted : project.accepted? disk operation = some (after, saved)) :
    after = (project.perform disk operation).1 ∧
      saved = after.saveSettings disk (project.refresh disk).stored := by
  cases operation with
  | excludePath path =>
      obtain ⟨followUp, done, rfl, rfl⟩ := exists_ok_of_accepted accepted
      rw [Project.perform]
      exact ⟨rfl, saved_changeFiles (fun set => set.answers_excludePath disk path) done⟩
  | includePath path =>
      obtain ⟨followUp, done, rfl, rfl⟩ := exists_ok_of_accepted accepted
      rw [Project.perform]
      exact ⟨rfl, saved_changeFiles (fun set => set.answers_includePath disk path) done⟩
  | addRoot path =>
      obtain ⟨followUp, done, rfl, rfl⟩ := exists_ok_of_accepted accepted
      rcases addRoot_cases project disk path with ⟨-, _, refused⟩ | ⟨-, _, -, same⟩
      · rw [refused] at done
        cases done
      · exact ⟨rfl, saved_of_accept same⟩
  | removeRoot path =>
      obtain ⟨followUp, done, rfl, rfl⟩ := exists_ok_of_accepted accepted
      rcases removeRoot_cases project disk path with
        ⟨-, _, refused⟩ | ⟨-, ⟨_, refused⟩ | same⟩
      · rw [refused] at done
        cases done
      · rw [refused] at done
        cases done
      · exact ⟨rfl, saved_of_accept same⟩
  | setMacros given =>
      obtain ⟨rfl, rfl⟩ := Prod.mk.inj (Option.some.inj accepted)
      refine ⟨rfl, ?_⟩
      rw [setMacros]
      dsimp only
      rw [saveSettings_addAllWaiting, saveSettings_takeIn]
  | reload => cases accepted
  | discover limits => cases accepted

end SvServer.Project
