import Mathlib.Data.List.Forall2
import Mathlib.Data.List.Perm.Subperm
import SvServer.Project.Change
import SvServer.Proofs.Project.Roots

/-!
# Applying settings

Settings give every root exclusions of its own. The roots are walked again only if roots or
exclusions move; otherwise the flags of the files stay as they are, and so no root may have an
exclusion that it did not have. That holds for a reason of number: settings that name the exclusions
there were take none from any root, and all roots have as many together as before.
-/

namespace SvServer.Project

variable {project : Project} {disk : Disk} {settings : ProjectSettings}

/-- **Settings give every root exclusions of its own.** -/
theorem files?_apply (project : Project) (disk : Disk) (settings : ProjectSettings)
    (place : Option Path) : (project.apply disk settings).project.files? place =
      ((project.importRoots disk settings.imports).1.files? place).map fun set =>
        set.setExclusions disk project.root settings.excludePaths :=
  files?_map (project.importRoots disk settings.imports).1
    (fun set => set.setExclusions disk project.root settings.excludePaths) place

theorem Rooted.apply (h : project.Rooted) (disk : Disk) (settings : ProjectSettings) :
    (project.apply disk settings).project.Rooted :=
  (h.importRoots disk settings.imports).map (files?_apply project disk settings) (fun _ => rfl)
    fun _ h => h.setExclusions disk project.root settings.excludePaths

/-- The root at a place stays where it is. -/
theorem root_beq_of_files? (h : project.Rooted) {place : Option Path} {set after : RootFiles}
    (found : project.files? place = some set)
    (applied : (project.apply disk settings).project.files? place = some after) :
    (after.root == set.root) = true := by
  have rooted := h.apply disk settings
  cases place with
  | none =>
      rw [files?_apply, files?, principal_importRoots] at applied
      rw [← Option.some.inj applied, ← Option.some.inj found]
      exact BEq.rfl
  | some root =>
      exact BEq.trans (rooted.keys root after applied) (BEq.symm (h.keys root set found))

theorem beq_iff_map_components {a b : List Path} :
    (a == b) = true ↔ a.map Path.components = b.map Path.components := by
  induction a generalizing b with
  | nil => cases b <;> simp
  | cons first rest ih =>
      cases b with
      | nil => simp
      | cons other more => simp [List.cons_beq_cons, ih, Path.beq_iff]

/-- A member of the exclusions at a place is among the exclusions of the project. -/
theorem mem_map_exclusions {place : Option Path} {set : RootFiles}
    (found : project.files? place = some set) {path : Path}
    (member : set.excluded.contains path = true) :
    path.components ∈ project.exclusions.map Path.components := by
  obtain ⟨spelled, listed, same⟩ := PathSet.exists_mem_toList member
  rw [Path.beq_iff.1 same, exclusions]
  exact List.mem_map_of_mem
    (List.mem_flatMap.2 ⟨set, mem_rootFiles_iff.2 ⟨place, found⟩, listed⟩)

/-- **Where settings name the exclusions there were, no root loses one.** An exclusion of a root is
named by some entry, and the root takes it since it lies beneath. -/
theorem contains_of_exclusions_eq (h : project.Rooted)
    (still : ((project.apply disk settings).project.exclusions == project.exclusions) = true)
    {place : Option Path} {set after : RootFiles} (found : project.files? place = some set)
    (applied : (project.apply disk settings).project.files? place = some after) {path : Path}
    (member : set.excluded.contains path = true) : after.excluded.contains path = true := by
  have named := mem_map_exclusions found member
  rw [← beq_iff_map_components.1 still, List.mem_map] at named
  obtain ⟨other, listed, same⟩ := named
  obtain ⟨holder, holds, within⟩ := List.mem_flatMap.1 listed
  obtain ⟨place', stored⟩ := mem_rootFiles_iff.1 holds
  rw [files?_apply] at stored
  obtain ⟨_, -, rfl⟩ := Option.map_eq_some_iff.1 stored
  obtain ⟨entry, given, spelled, -, there⟩ :=
    (RootFiles.contains_setExclusions ..).1 (PathSet.contains_of_mem_toList within)
  have root := root_beq_of_files? h found applied
  rw [files?_apply] at applied
  obtain ⟨imported, -, rfl⟩ := Option.map_eq_some_iff.1 applied
  have here : (path == entry) = true := BEq.trans (Path.beq_iff.2 same.symm) spelled
  refine (RootFiles.contains_setExclusions ..).2 ⟨entry, given, here, ?_, there⟩
  have beneath := (h.files place set found).excluded path member
  have root' : (imported.root == set.root) = true := root
  rw [Path.isUnder, Path.beq_iff.1 root', ← Path.isUnder, ← Path.isUnder_congr here]
  exact beneath

/-- The exclusions of a root in their order, up to spelling. -/
def exclusionRow (set : RootFiles) : List (List Component) :=
  set.excluded.toList.map Path.components

theorem mem_exclusionRow {set : RootFiles} {path : Path} :
    path.components ∈ exclusionRow set ↔ set.excluded.contains path = true := by
  rw [exclusionRow, ← Std.ExtTreeSet.contains_toList, List.contains_iff_exists_mem_beq,
    List.mem_map]
  constructor
  · rintro ⟨other, listed, same⟩
    exact ⟨other, listed, Path.beq_iff.2 same.symm⟩
  · rintro ⟨other, listed, same⟩
    exact ⟨other, listed, (Path.beq_iff.1 same).symm⟩

theorem nodup_exclusionRow (set : RootFiles) : (exclusionRow set).Nodup := by
  rw [exclusionRow, List.Nodup, List.pairwise_map]
  exact Std.ExtTreeSet.distinct_toList.imp fun distinct same =>
    distinct (Path.compare_eq_iff.2 same)

/-- A root that has the exclusions of another one has as many at least. -/
theorem length_exclusionRow_le {set after : RootFiles}
    (h : ∀ path, set.excluded.contains path = true → after.excluded.contains path = true) :
    (exclusionRow set).length ≤ (exclusionRow after).length := by
  refine ((nodup_exclusionRow set).subperm ?_).length_le
  intro row member
  obtain ⟨path, listed, rfl⟩ := List.mem_map.1 member
  exact mem_exclusionRow.2 (h path (PathSet.contains_of_mem_toList listed))

/-- Rows that are as long at least come to as much at least. -/
theorem length_flatten_le {α : Type} {rows rows' : List (List α)}
    (longer : List.Forall₂ (fun row row' => row.length ≤ row'.length) rows rows') :
    rows.flatten.length ≤ rows'.flatten.length := by
  induction longer with
  | nil => exact Nat.le_refl 0
  | cons head _ ih =>
      rw [List.flatten_cons, List.flatten_cons, List.length_append, List.length_append]
      omega

/-- If they come to the same when written one behind the other, they are the same row by row. -/
theorem eq_of_flatten_eq {α : Type} {rows rows' : List (List α)}
    (longer : List.Forall₂ (fun row row' => row.length ≤ row'.length) rows rows')
    (same : rows.flatten = rows'.flatten) : rows = rows' := by
  induction longer with
  | nil => rfl
  | cons head tail ih =>
      have lengths := congrArg List.length same
      have behind := length_flatten_le tail
      rw [List.flatten_cons, List.flatten_cons] at same
      rw [List.flatten_cons, List.flatten_cons, List.length_append, List.length_append] at lengths
      obtain ⟨first, others⟩ := List.append_inj same (by omega)
      rw [first, ih others]

/-- The rows of all roots come to the exclusions of the project. -/
theorem flatten_exclusionRows (project : Project) :
    (project.rootFiles.map exclusionRow).flatten = project.exclusions.map Path.components := by
  rw [exclusions, List.map_flatMap, ← List.flatMap_def]
  rfl

/-- The imports of two projects with the same roots, in their order. -/
theorem keys_getElem {before after : Project}
    (keys : (after.imports.keys == before.imports.keys) = true) {i : Nat}
    (h : i < before.imports.toList.length) (h' : i < after.imports.toList.length) :
    (after.imports.toList[i].1 == before.imports.toList[i].1) = true := by
  rw [beq_iff_map_components, ← Std.ExtTreeMap.map_fst_toList_eq_keys,
    ← Std.ExtTreeMap.map_fst_toList_eq_keys] at keys
  have here := congrArg (fun row => row[i]?) keys
  simp only [List.getElem?_map, List.getElem?_eq_getElem h, List.getElem?_eq_getElem h',
    Option.map_some, Option.some.injEq] at here
  exact Path.beq_iff.2 here

theorem length_imports_eq {before after : Project}
    (keys : (after.imports.keys == before.imports.keys) = true) :
    after.imports.toList.length = before.imports.toList.length := by
  have lengths := congrArg List.length (beq_iff_map_components.1 keys)
  rwa [List.length_map, List.length_map, Std.ExtTreeMap.length_keys, Std.ExtTreeMap.length_keys,
    ← Std.ExtTreeMap.length_toList, ← Std.ExtTreeMap.length_toList] at lengths

/-- **Settings that name the roots and exclusions there were change no root's exclusions.** No root
loses one, and all have as many together as before. -/
theorem exclusionRows_eq_of_scope (h : project.Rooted)
    (still : ((project.apply disk settings).project.scope == project.scope) = true) :
    project.rootFiles.map exclusionRow =
      (project.apply disk settings).project.rootFiles.map exclusionRow := by
  obtain ⟨exclusions, keys⟩ := Bool.and_eq_true_iff.1
    (show ((project.apply disk settings).project.exclusions == project.exclusions &&
      (project.apply disk settings).project.imports.keys == project.imports.keys) = true from still)
  have grows : ∀ place set after, project.files? place = some set →
      (project.apply disk settings).project.files? place = some after →
        (exclusionRow set).length ≤ (exclusionRow after).length :=
    fun place set after found applied => length_exclusionRow_le fun path member =>
      contains_of_exclusions_eq h exclusions found applied member
  refine eq_of_flatten_eq ?_ ?_
  · rw [rootFiles, rootFiles, List.map_cons, List.map_cons]
    refine .cons (grows none _ _ rfl rfl) ?_
    rw [PathMap.values_eq_map_toList, PathMap.values_eq_map_toList, List.map_map, List.map_map,
      List.forall₂_map_left_iff, List.forall₂_map_right_iff, List.forall₂_iff_get]
    refine ⟨(length_imports_eq keys).symm, fun i h h' => ?_⟩
    have same := keys_getElem keys h h'
    refine grows (some project.imports.toList[i].1) _ _
      (PathMap.getElem?_of_mem_toList (List.getElem_mem h)) ?_
    rw [files?, ← PathMap.getElem?_congr _ same]
    exact PathMap.getElem?_of_mem_toList (List.getElem_mem h')
  · rw [flatten_exclusionRows, flatten_exclusionRows, beq_iff_map_components.1 exclusions]

/-- The same, place by place. -/
theorem contains_excluded_of_scope (h : project.Rooted)
    (still : ((project.apply disk settings).project.scope == project.scope) = true)
    {place : Option Path} {set after : RootFiles} (found : project.files? place = some set)
    (applied : (project.apply disk settings).project.files? place = some after) (path : Path) :
    after.excluded.contains path = set.excluded.contains path := by
  have rows := exclusionRows_eq_of_scope h still
  have keys : ((project.apply disk settings).project.imports.keys == project.imports.keys) = true :=
    (Bool.and_eq_true_iff.1 still).2
  have here : exclusionRow set = exclusionRow after := by
    rw [rootFiles, rootFiles, List.map_cons, List.map_cons, List.cons.injEq,
      PathMap.values_eq_map_toList, PathMap.values_eq_map_toList, List.map_map, List.map_map]
      at rows
    cases place with
    | none =>
        rw [← Option.some.inj found, ← Option.some.inj applied]
        exact rows.1
    | some root =>
        -- The import stands at the same position in both tables.
        obtain ⟨key, same, listed⟩ := PathMap.exists_mem_toList found
        obtain ⟨i, h, entry⟩ := List.mem_iff_getElem.1 listed
        have h' := h
        rw [← length_imports_eq keys] at h'
        have row := congrArg (fun rows => rows[i]?) rows.2
        simp only [List.getElem?_map, List.getElem?_eq_getElem h, List.getElem?_eq_getElem h',
          Option.map_some, Option.some.injEq, Function.comp_apply, entry] at row
        have spelled := keys_getElem keys h h'
        rw [entry] at spelled
        have stored := PathMap.getElem?_of_mem_toList (List.getElem_mem h')
        rw [PathMap.getElem?_congr _ spelled, ← PathMap.getElem?_congr _ same, ← files?,
          applied] at stored
        rw [row, Option.some.inj stored]
  rw [Bool.eq_iff_iff, ← mem_exclusionRow, ← mem_exclusionRow, here]

/-- **Settings that name the roots and exclusions there were need no walk.** -/
theorem Consistent.apply_of_scope (h : project.Consistent)
    (still : ((project.apply disk settings).project.scope == project.scope) = true) :
    (project.apply disk settings).project.Consistent where
  toRooted := h.toRooted.apply disk settings
  exact place after applied file included := by
    have imported := applied
    rw [files?_apply] at imported
    obtain ⟨set, found, same⟩ := Option.map_eq_some_iff.1 imported
    have files : after.isIncluded file = set.isIncluded file := by
      rw [← same]
      rfl
    rcases files?_importRoots found with kept | fresh
    · rw [Bool.eq_false_iff]
      intro excluded
      obtain ⟨path, member, beneath⟩ := RootFiles.isExcluded_iff.1 excluded
      rw [contains_excluded_of_scope h.toRooted still kept applied] at member
      have before := h.exact place set kept file (by rw [← files, included])
      rw [RootFiles.isExcluded_iff.2 ⟨path, member, beneath⟩] at before
      exact absurd before (by decide)
    · rw [files, fresh file] at included
      exact absurd included (by decide)

/-- The project after settings were applied. Every included file waits if they change what is found
in files. -/
def marked (project : Project) (disk : Disk) (settings : ProjectSettings) : Project :=
  if (project.apply disk settings).settingsChanged then
    (project.apply disk settings).project.addAllWaiting
  else (project.apply disk settings).project

theorem files?_marked (project : Project) (disk : Disk) (settings : ProjectSettings)
    (place : Option Path) : (project.marked disk settings).files? place =
      (project.apply disk settings).project.files? place := by
  rw [marked]
  split
  · cases place <;> rfl
  · rfl

theorem scope_marked (project : Project) (disk : Disk) (settings : ProjectSettings) :
    (project.marked disk settings).scope = (project.apply disk settings).project.scope := by
  rw [marked]
  split <;> rfl

/-- **What reading the settings again comes to**: nothing when they cannot be used; otherwise they
are applied, and the roots are walked if roots or exclusions moved. -/
theorem refresh_cases (project : Project) (disk : Disk) :
    (∀ stored, ProjectSettings.read disk project.root ≠ .ok (some stored)) ∧
      project.refresh disk = ⟨project, .empty, .empty⟩ ∨
    ∃ stored, ProjectSettings.read disk project.root = .ok (some stored) ∧
      (((project.marked disk stored).scope == project.scope) = true ∧
        project.refresh disk =
          ⟨project.marked disk stored, stored, (project.apply disk stored).delta⟩ ∨
      ((project.marked disk stored).scope == project.scope) = false ∧
        project.refresh disk = ⟨((project.marked disk stored).discoverAll disk).1, stored,
          (project.apply disk stored).delta.merge
            ((project.marked disk stored).discoverAll disk).2⟩) := by
  cases read : ProjectSettings.read disk project.root with
  | error => exact .inl ⟨nofun, by rw [refresh, read]⟩
  | ok found =>
      cases found with
      | none => exact .inl ⟨nofun, by rw [refresh, read]⟩
      | some stored =>
          refine .inr ⟨stored, rfl, ?_⟩
          cases still : ((project.marked disk stored).scope == project.scope) with
          | true =>
              refine .inl ⟨rfl, ?_⟩
              rw [refresh, read]
              exact if_pos still
          | false =>
              refine .inr ⟨rfl, ?_⟩
              rw [refresh, read]
              exact if_neg (Bool.eq_false_iff.1 still)

/-- **Reading the settings again keeps every root in order**, whether the roots are walked or
not. -/
theorem Consistent.refresh (h : project.Consistent) (disk : Disk) :
    (project.refresh disk).project.Consistent := by
  rcases refresh_cases project disk with ⟨-, nothing⟩ | ⟨stored, -, ⟨still, kept⟩ | ⟨-, walked⟩⟩
  · rw [nothing]
    exact h
  · rw [kept]
    rw [scope_marked] at still
    exact (h.apply_of_scope still).of_files? (files?_marked project disk stored)
  · rw [walked]
    exact ((h.toRooted.apply disk stored).of_files?
      (files?_marked project disk stored)).consistent_discoverAll disk

end SvServer.Project
