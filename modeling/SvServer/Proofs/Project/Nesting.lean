import SvServer.Proofs.Project.Altering
import SvServer.Proofs.Project.ExcludedFiles

/-!
# Roots inside of roots

Settings never bring roots that lie inside one another: an import is left out where there is no room
for it. A root that is added on request is checked as well, but against the roots that are known
before the settings are read again. So there is one way, and only one, for roots to nest: a root is
added, and reading the settings has just brought another one above or beneath it.
-/

namespace SvServer.Project

variable {project before after : Project} {disk : Disk} {path : Path}

/-! ## Roots at places -/

/-- **Roots are apart when no two places have roots that overlap.** -/
theorem apart_iff : project.Apart ↔ ∀ place other set set', project.files? place = some set →
    project.files? other = some set' → set.root.overlaps set'.root = true →
      (place == other) = true := by
  have symmetric : Std.Symm fun entry other : Path × RootFiles =>
      ¬entry.2.root.overlaps other.2.root = true :=
    ⟨fun entry other apart overlap => apart ((Path.overlaps_comm ..).trans overlap)⟩
  have pairs : project.Apart ↔
      (∀ entry ∈ project.imports.toList, ¬project.principal.root.overlaps entry.2.root = true) ∧
        project.imports.toList.Pairwise fun entry other =>
          ¬entry.2.root.overlaps other.2.root = true := by
    rw [Apart, rootFiles, List.pairwise_cons, PathMap.values_eq_map_toList, List.pairwise_map,
      List.forall_mem_map]
    simp only [Path.overlaps, Bool.or_eq_true, not_or, Bool.not_eq_true]
  have distinct : project.imports.toList.Pairwise fun entry other => ¬(entry.1 == other.1) = true :=
    Std.ExtTreeMap.distinct_keys_toList.imp fun distinct same =>
      distinct (Path.compare_eq_of_beq same)
  rw [pairs]
  constructor
  · rintro ⟨principal, imports⟩ place other set set' found found' overlap
    cases place with
    | none =>
        cases other with
        | none => rfl
        | some root =>
            obtain ⟨key, -, listed⟩ := PathMap.exists_mem_toList found'
            rw [← Option.some.inj found] at overlap
            exact absurd overlap (principal _ listed)
    | some root =>
        obtain ⟨key, same, listed⟩ := PathMap.exists_mem_toList found
        cases other with
        | none =>
            rw [← Option.some.inj found', Path.overlaps_comm] at overlap
            exact absurd overlap (principal _ listed)
        | some root' =>
            obtain ⟨key', same', listed'⟩ := PathMap.exists_mem_toList found'
            by_cases one : (key, set) = (key', set')
            · rw [Prod.mk.injEq] at one
              rw [one.1] at same
              show (root == root') = true
              exact BEq.trans same (BEq.symm same')
            · exact absurd overlap (List.Pairwise.forall imports listed listed' one)
  · intro apart
    refine ⟨fun entry listed overlap => ?_, distinct.imp_of_mem fun listed listed' other overlap => ?_⟩
    · have same := apart none (some entry.1) _ _ rfl (PathMap.getElem?_of_mem_toList listed) overlap
      exact absurd same (by simp)
    · exact other (apart (some _) (some _) _ _ (PathMap.getElem?_of_mem_toList listed)
        (PathMap.getElem?_of_mem_toList listed') overlap)

/-- Places that keep their roots, or lose them, stay apart. -/
theorem Apart.of_roots (h : before.Apart)
    (roots : ∀ place set, after.files? place = some set →
      ∃ old, before.files? place = some old ∧ set.root = old.root) : after.Apart := by
  rw [apart_iff] at h ⊢
  intro place other set set' found found' overlap
  obtain ⟨old, stored, same⟩ := roots place set found
  obtain ⟨old', stored', same'⟩ := roots other set' found'
  rw [same, same'] at overlap
  exact h place other old old' stored stored' overlap

theorem Apart.of_files? (h : before.Apart)
    (same : ∀ place, after.files? place = before.files? place) : after.Apart :=
  h.of_roots fun place set found => ⟨set, (same place).symm.trans found, rfl⟩

theorem Apart.map (h : before.Apart) {change : RootFiles → RootFiles}
    (same : ∀ place, after.files? place = (before.files? place).map change)
    (root : ∀ set, (change set).root = set.root) : after.Apart := by
  refine h.of_roots fun place set found => ?_
  rw [same] at found
  obtain ⟨old, stored, rfl⟩ := Option.map_eq_some_iff.1 found
  exact ⟨old, stored, root old⟩

/-- **A root that is put in stays apart** exactly where it overlaps no root at another place. -/
theorem Apart.insert_iff (h : project.Apart) {root : Path} {set : RootFiles}
    (key : (set.root == root) = true) :
    Apart { project with imports := project.imports.insert root set } ↔
      ∀ place old, project.files? place = some old → old.root.overlaps root = true →
        (some root == place) = true := by
  have new := Path.overlaps_congr_right key
  rw [apart_iff]
  simp only [files?_insert]
  constructor
  · intro apart place old found overlap
    by_cases here : (some root == place) = true
    · exact here
    · refine apart (some root) place set old (by simp) (by rw [if_neg here, found]) ?_
      rw [Path.overlaps_comm, new, overlap]
  · intro room place other old old' found found' overlap
    by_cases here : (some root == place) = true
    · by_cases there : (some root == other) = true
      · exact BEq.trans (BEq.symm here) there
      · rw [if_pos here, Option.some.injEq] at found
        rw [if_neg there] at found'
        rw [← found, Path.overlaps_comm, new] at overlap
        exact absurd (room other old' found' overlap) there
    · rw [if_neg here] at found
      by_cases there : (some root == other) = true
      · rw [if_pos there, Option.some.injEq] at found'
        rw [← found', new] at overlap
        exact absurd (room place old found overlap) here
      · rw [if_neg there] at found'
        exact apart_iff.1 h place other old old' found found' overlap

/-! ## Alterations -/

/-- **Alterations keep roots apart.** -/
theorem Apart.alters (h : before.Apart) (alters : Alters disk before after) : after.Apart := by
  cases alters with
  | keeps same => exact h.of_files? same
  | excludes base entries same => exact h.map same fun _ => rfl
  | walks same => exact h.map same fun _ => rfl
  | limits limits same => exact h.map same fun _ => rfl
  | drops root => exact h.of_roots fun place set found => ⟨set, files?_dropImport found, rfl⟩
  | @adds root normal =>
      rw [addImport]
      split
      · exact h
      · rename_i free
        have key : ((RootFiles.ofRoot root before.principal.limits).root == root) = true :=
          Path.beq_iff.2 normal
        refine (h.insert_iff key).2 fun place old found overlap => ?_
        have room : before.hasRoomFor root = true := by
          simp only [Bool.or_eq_true, not_or, Bool.not_eq_true] at free
          rw [hasRoomFor, free.1.2, free.2]
          rfl
        rw [Path.overlaps_comm] at overlap
        have full := hasRoomFor_eq_false_iff.2 ⟨place, old, found, overlap⟩
        exact absurd (full.symm.trans room) Bool.false_ne_true
  | puts path alters =>
      refine h.of_roots fun place set found => ?_
      rw [files?_putFilesFor] at found
      split at found
      · rename_i here
        refine ⟨before.filesFor path, ?_, ?_⟩
        · rw [← files?_congr before here, files?_importAbove?]
        · rw [← Option.some.inj found, alters.root]
      · exact ⟨set, found, rfl⟩

theorem Apart.altered (h : before.Apart) (altered : Altered disk before after) : after.Apart := by
  induction altered with
  | refl => exact h
  | tail _ alters ih => exact ih.alters alters

theorem apart_ofRoot (root : Path) (limits : DiscoveryLimits) : (ofRoot root limits).Apart := by
  have none : ∀ place set, (ofRoot root limits).files? place = some set → place = none := by
    intro place set found
    cases place with
    | none => rfl
    | some other =>
        rw [files?, ofRoot, Std.ExtTreeMap.getElem?_empty] at found
        cases found
  refine apart_iff.2 fun place other set set' found found' _ => ?_
  rw [none place set found, none other set' found']
  rfl

/-- **The roots of a project that was just opened are apart.** -/
theorem apart_openRoot {root : Path} {limits : DiscoveryLimits} {followUp : FollowUp}
    (opens : openRoot disk root limits = .ok (project, followUp)) : project.Apart := by
  obtain ⟨settings, delta, rfl⟩ := eq_of_openRoot opens
  refine ((apart_ofRoot root.normalize limits).altered ((altered_apply _ disk settings).trans
    (altered_discoverAll _ disk))).of_files? fun place => ?_
  rw [files?_addAllWaiting, files?_takeIn]

/-! ## Operations -/

/-- Whether a root is added on request although, once the settings were read again, it overlaps
another import. -/
def Clashes (project : Project) (disk : Disk) (path : Path) : Prop :=
  project.reads disk (.addRoot path) = true ∧
    ∃ root, (project.refresh disk).project.imports.contains root = true ∧
      (root == path.normalize) = false ∧ root.overlaps path.normalize = true

/-- A root that is added on request overlaps the principal root no more after the settings were read
than before. -/
theorem overlaps_root_of_reads (reads : project.reads disk (.addRoot path) = true) :
    path.normalize.overlaps (project.refresh disk).project.root = false := by
  have room : project.hasRoomFor path.normalize = true := by
    simp only [Project.reads, Bool.and_eq_true, Bool.not_eq_true'] at reads
    rw [hasRoomFor, reads.1.1.2, reads.1.2]
    rfl
  rw [root_refresh, Bool.eq_false_iff]
  intro overlap
  have full := hasRoomFor_eq_false_iff.2 ⟨none, project.principal, rfl, overlap⟩
  exact Bool.false_ne_true (full.symm.trans room)

/-- **A root that is added stays apart** exactly where it clashes with no other import. -/
theorem apart_joined_iff (h : project.Consistent) (apart : project.Apart)
    (reads : project.reads disk (.addRoot path) = true) :
    ((project.refresh disk).project.joined disk path).Apart ↔ ¬project.Clashes disk path := by
  have fresh := h.refresh disk
  have key : (((RootFiles.ofRoot path.normalize
      (project.refresh disk).project.principal.limits).discover disk).1.root == path.normalize) =
      true := Path.beq_iff.2 path.isNormal_normalize
  rw [joined, (apart.altered (altered_refresh project disk)).insert_iff key]
  constructor
  · rintro alone ⟨-, root, member, other, overlap⟩
    obtain ⟨old, found⟩ := contains_imports_iff.1 member
    rw [← Path.overlaps_congr (fresh.keys root old found)] at overlap
    have same : (path.normalize == root) = true := alone (some root) old found overlap
    exact Bool.false_ne_true (other.symm.trans (BEq.symm same))
  · intro alone place old found overlap
    cases place with
    | none =>
        rw [← Option.some.inj found, Path.overlaps_comm] at overlap
        exact absurd ((overlaps_root_of_reads reads).symm.trans overlap) Bool.false_ne_true
    | some root =>
        rw [Path.overlaps_congr (fresh.keys root old found)] at overlap
        refine Decidable.byContradiction fun other =>
          alone ⟨reads, root, contains_imports_iff.2 ⟨old, found⟩, ?_, overlap⟩
        rw [Bool.eq_false_iff]
        exact fun same => other (BEq.symm same)

/-- **What a step does to roots that are apart**: they stay apart, unless a root is added that
clashes. -/
theorem apart_step_iff (h : project.Consistent) (apart : project.Apart) (step : Step) :
    (project.step step).Apart ↔
      ∀ disk path, step = .perform disk (.addRoot path) → ¬project.Clashes disk path := by
  cases step with
  | perform disk operation =>
      rw [Project.step]
      rcases perform_alters project disk operation with ⟨unread, altered⟩ | ⟨path, rfl, reads, joined⟩
      · refine iff_of_true (apart.altered altered) ?_
        rintro disk path same ⟨reads, -⟩
        obtain ⟨rfl, rfl⟩ := Step.perform.inj same
        exact Bool.false_ne_true ((unread path rfl).symm.trans reads)
      · have after : (project.perform disk (.addRoot path)).1.Apart ↔
            ((project.refresh disk).project.joined disk path).Apart :=
          ⟨fun h => h.of_files? fun place => (joined place).symm, fun h => h.of_files? joined⟩
        rw [after, apart_joined_iff h apart reads]
        constructor
        · rintro alone disk path same
          cases same
          exact alone
        · exact fun alone => alone disk path rfl
  | dropMissing disk path =>
      exact iff_of_true (apart.altered (altered_dropMissing project disk path)) nofun
  | addWaiting path => exact iff_of_true (apart.of_files? (files?_addWaiting project path)) nofun
  | addAllWaiting => exact iff_of_true (apart.of_files? (files?_addAllWaiting project)) nofun
  | takeWaiting => exact iff_of_true (apart.of_files? (files?_takeWaiting project)) nofun

/-- **When roots never nest**: all along a row of steps the roots of a project are apart exactly when
no step adds a root that clashes with an import which reading the settings brings. -/
theorem apart_throughout_iff {root : Path} {limits : DiscoveryLimits} {followUp : FollowUp}
    (opens : openRoot disk root limits = .ok (project, followUp)) (steps : List Step) :
    (∀ front, front <+: steps → (project.afterSteps front).Apart) ↔
      ∀ front disk path, front ++ [.perform disk (.addRoot path)] <+: steps →
        ¬(project.afterSteps front).Clashes disk path := by
  have consistent : ∀ front, (project.afterSteps front).Consistent := fun front =>
    ((Reachable.opened opens).afterSteps front).consistent
  constructor
  · intro apart front disk path begins
    have here := apart front ((List.prefix_append _ _).trans begins)
    have then_ := apart _ begins
    rw [afterSteps_concat, apart_step_iff (consistent front) here] at then_
    exact then_ disk path rfl
  · intro alone front
    induction front using List.reverseRecOn with
    | nil => exact fun _ => apart_openRoot opens
    | append_singleton front step ih =>
        intro begins
        have here := ih ((List.prefix_append _ _).trans begins)
        rw [afterSteps_concat, apart_step_iff (consistent front) here]
        rintro disk path rfl
        exact alone front disk path begins

/-! ## A root added around another one -/

/-- A result that is there is the one that can be taken from it. -/
theorem eq_ok_of_isSome {ε α : Type} {result : Except ε α} (there : result.toOption.isSome = true) :
    result = .ok (result.toOption.get there) := by
  cases result with
  | error => exact absurd there Bool.false_ne_true
  | ok value => rfl

/-- A disk with a library beside a project. The folder of the project holds the settings. -/
def libraryDisk (settings : Folder) : Disk where
  top := .folder "lib" true
    (.folder "sub" true (.file "m.sv" ⟨some "module m;\nendmodule\n", 20, 0⟩ .empty) .empty)
    (.folder "p" true settings .empty)
  current := .ofString "/"
  now := 1

/-- The disk once another tool has written settings that import a folder of the library. -/
def importingDisk : Disk :=
  libraryDisk (.file ".hdl-project" ⟨some "\x7b\"imports\": [\"/lib/sub\"]\x7d", 25, 1⟩ .empty)

/-- The project, opened before there were settings. -/
def libraryOpened : Except ProjectError (Project × FollowUp) :=
  openRoot (libraryDisk .empty) (.ofString "/p") ⟨100, 100⟩

theorem isSome_libraryOpened : libraryOpened.toOption.isSome = true := by decide +kernel

def libraryProject : Project := (libraryOpened.toOption.get isSome_libraryOpened).1

theorem opens_libraryProject : openRoot (libraryDisk .empty) (.ofString "/p") ⟨100, 100⟩ =
    .ok (libraryProject, (libraryOpened.toOption.get isSome_libraryOpened).2) :=
  eq_ok_of_isSome isSome_libraryOpened

/-- The whole library is added. -/
def librarySteps : List Step := [.perform importingDisk (.addRoot (.ofString "/lib"))]

/-- When the roots of this project are apart all along. -/
theorem apart_throughout_librarySteps :
    openRoot (libraryDisk .empty) (.ofString "/p") ⟨100, 100⟩ =
      .ok (libraryProject, (libraryOpened.toOption.get isSome_libraryOpened).2) ∧
    ((∀ front, front <+: librarySteps → (libraryProject.afterSteps front).Apart) ↔
      ∀ front disk path, front ++ [.perform disk (.addRoot path)] <+: librarySteps →
        ¬(libraryProject.afterSteps front).Clashes disk path) :=
  ⟨opens_libraryProject, apart_throughout_iff opens_libraryProject librarySteps⟩

/-- **The library is a root beside a folder of its own**: both are imports in the end. -/
theorem not_apart_librarySteps :
    libraryProject.Reachable ∧ ¬(libraryProject.afterSteps librarySteps).Apart ∧
      (libraryProject.afterSteps librarySteps).imports.contains (.ofString "/lib") = true ∧
      (libraryProject.afterSteps librarySteps).imports.contains (.ofString "/lib/sub") = true := by
  exact ⟨.opened opens_libraryProject, by decide +kernel, by decide +kernel, by decide +kernel⟩

end SvServer.Project
