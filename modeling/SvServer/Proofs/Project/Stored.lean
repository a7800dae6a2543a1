import SvServer.Project.Change
import SvServer.Proofs.Disk
import SvServer.Proofs.MacroTable
import SvServer.Proofs.Project.Altering
import SvServer.Proofs.Project.Carrying

/-!
# Settings as they are stored

Exclusions are stored from the principal root on, those of imports in full, and all of them in one
list. Read back, each entry gives the path that it was written for, since exclusions are normal forms
and no name holds a separator. So the stored list gives back the exclusions of all roots together,
and each root finds its own among them as long as no root lies inside another one.
-/

namespace SvServer

namespace RootFiles

variable {set : RootFiles} {disk : Disk}

/-- Whether all exclusions of a root are written in their normal form. -/
def NormalExclusions (set : RootFiles) : Prop := ∀ path ∈ set.excluded.toList, path.normalize = path

/-- What is true of the exclusions that an alteration adds: of paths that exist, and of what lies
beside the way from an exclusion down. -/
structure Fits (disk : Disk) (holds : Path → Prop) : Prop where
  found : ∀ path : Path, path.normalize = path → disk.pathExists path = true → holds path
  beside : ∀ (folder : Path) (way : List Component) (path : Path),
    Path.NormalForm (folder.components ++ way) → holds folder → Beside disk folder way path →
      holds path

section Fits

variable {holds : Path → Prop}

theorem forall_mem_filter (h : ∀ path ∈ set.excluded.toList, holds path) (keep : Path → Bool) :
    ∀ path ∈ (set.excluded.filter keep).toList, holds path := by
  intro path stored
  rw [Std.ExtTreeSet.toList_filter, List.mem_filter] at stored
  exact h path stored.1

theorem Fits.excludePath (fits : Fits disk holds) (h : ∀ path ∈ set.excluded.toList, holds path)
    (path : Path) : ∀ other ∈ (set.excludePath disk path).1.excluded.toList, holds other := by
  rw [RootFiles.excludePath]
  cases known : set.validPath disk path with
  | error error => exact h
  | ok valid =>
      have there := pathExists_of_validPath known
      rw [eq_normalize_of_validPath known] at there ⊢
      dsimp only
      split
      · exact h
      · intro other stored
        rcases PathSet.mem_toList_insert stored with rfl | stored
        · exact fits.found _ path.normalize_normalize there
        · exact forall_mem_filter h _ other stored

theorem Fits.includePath (fits : Fits disk holds) (h : ∀ path ∈ set.excluded.toList, holds path)
    (path : Path) : ∀ other ∈ (set.includePath disk path).1.excluded.toList, holds other := by
  rw [RootFiles.includePath]
  cases known : set.validPath disk path with
  | error error => exact h
  | ok valid =>
      rw [eq_normalize_of_validPath known]
      dsimp only
      split
      · exact forall_mem_filter h _
      · rename_i above found
        obtain ⟨listed, -⟩ := isExcludedBy_of_exclusionAbove? found
        obtain ⟨way, -, form, down⟩ :=
          exists_way_of_exclusionAbove? path.normalize_normalize found
        rw [down]
        have split : ∀ other ∈ (excludeBeside disk above way ((set.excluded.filter fun other =>
            !other.isUnder path.normalize).erase above)).1.toList, holds other := by
          intro other member
          rcases mem_excludeBeside member with before | beside
          · exact forall_mem_filter h _ other (PathSet.mem_toList_erase before)
          · exact fits.beside above way other form (h above listed) beside
        split
        · exact split
        · exact split

/-- **What is true of the exclusions that are added stays true of all**, whatever is done to the
files of a root. -/
theorem kept_exclusions (fits : Fits disk holds) :
    Kept disk fun set => ∀ path ∈ set.excluded.toList, holds path where
  ofRoot _ _ := nofun
  setExclusions set base entries _ := by
    intro path stored
    rcases PathSet.mem_toList_extend stored with listed | none
    · obtain ⟨given, usable⟩ := List.mem_filter.1 (List.mem_reverse.1 listed)
      obtain ⟨entry, -, rfl⟩ := List.mem_map.1 given
      rw [Bool.and_eq_true] at usable
      exact fits.found _ (Path.normalize_normalize _) usable.2
    · exact absurd none nofun
  discover _ h := h
  withLimits _ _ h := h
  alters set after alters h := by
    cases alters with
    | excludePath path => exact fits.excludePath h path
    | includePath path => exact fits.includePath h path
    | dropMissing path =>
        obtain ⟨files, after⟩ := dropMissing_fst set disk path
        rw [after]
        exact h

end Fits

/-- **Exclusions stay in normal form**: what a split adds is written like the path. -/
theorem kept_normalExclusions (named : disk.isWellNamed = true) : Kept disk NormalExclusions :=
  kept_exclusions
    { found := fun _ normal _ => normal
      beside := fun _ _ _ form normal beside => beside.normalize_eq named form normal }

end RootFiles

theorem Path.isAbsolute_congr {a b : Path} (same : (a == b) = true) :
    a.isAbsolute = b.isAbsolute := by
  rw [isAbsolute, isAbsolute, beq_iff.1 same]

/-- What lies beneath an absolute path is absolute. -/
theorem Path.isAbsolute_of_isUnder {path root : Path} (beneath : path.isUnder root = true)
    (absolute : root.isAbsolute = true) : path.isAbsolute = true := by
  obtain ⟨row, whole⟩ := isUnder_iff.1 beneath
  rw [isAbsolute, ← whole]
  rw [isAbsolute, beq_iff_eq] at absolute
  rw [List.head?_append, absolute]
  rfl

namespace Project

variable {project : Project} {disk : Disk} {base : ProjectSettings}

/-- What has to hold of a project for its settings to be read back: its exclusions are normal forms,
no name in them holds a separator, and its imports are absolute paths. -/
structure Storable (project : Project) : Prop where
  normal : project.Everywhere RootFiles.NormalExclusions
  slashless : project.Everywhere fun set => ∀ path ∈ set.excluded.toList, path.Slashless
  root : project.root.components ≠ []
  absolute : ∀ root, project.imports.contains root = true → root.isAbsolute = true

theorem map_filterMap_eq {α β : Type} {items : List α} {write : α → Option β} {read : β → α}
    (back : ∀ item ∈ items, ∃ text, write item = some text ∧ read text = item) :
    (items.filterMap write).map read = items := by
  induction items with
  | nil => rfl
  | cons first rest ih =>
      obtain ⟨text, written, same⟩ := back first List.mem_cons_self
      rw [List.filterMap_cons_some written, List.map_cons, same,
        ih fun item listed => back item (List.mem_cons_of_mem _ listed)]

/-- **The stored list gives back the exclusions of all roots.** -/
theorem read_excludePaths (h : project.Storable) (rooted : project.Rooted)
    (base : ProjectSettings) : ((project.settings base).excludePaths.map fun entry =>
      (project.root.join (Path.ofString entry)).normalize) = project.exclusions := by
  have own : (project.principal.storedExclusions.map fun entry =>
      (project.root.join (Path.ofString entry)).normalize) = project.principal.excluded.toList := by
    refine map_filterMap_eq fun path listed => ?_
    have beneath := (rooted.files none _ rfl).excluded path (PathSet.contains_of_mem_toList listed)
    have written : path.relativeTo? project.principal.root = some _ := if_pos beneath
    exact ⟨_, written, Path.normalize_join_relativeTo (h.normal none _ rfl path listed)
      (h.slashless none _ rfl path listed) h.root written⟩
  have foreign : ∀ path ∈ project.imports.values.flatMap fun set => set.excluded.toList,
      (project.root.join (Path.ofString path.toString)).normalize = path := by
    intro path listed
    obtain ⟨set, stored, listed⟩ := List.mem_flatMap.1 listed
    rw [PathMap.values_eq_map_toList] at stored
    obtain ⟨entry, member, rfl⟩ := List.mem_map.1 stored
    have found : project.files? (some entry.1) = some entry.2 := PathMap.getElem?_of_mem_toList member
    have beneath := (rooted.files _ _ found).excluded path (PathSet.contains_of_mem_toList listed)
    have absolute := (Path.isAbsolute_congr (rooted.keys _ _ found)).trans
      (h.absolute _ (contains_imports_iff.2 ⟨_, found⟩))
    exact Path.normalize_join_toString _ (h.normal _ _ found path listed)
      (h.slashless _ _ found path listed) (Path.isAbsolute_of_isUnder beneath absolute)
  have others := List.map_congr_left foreign
  rw [List.map_id'] at others
  rw [settings, List.map_append, own, List.map_map, exclusions, rootFiles, List.flatMap_cons]
  exact congrArg _ others

/-- A listed root that is written in full is read back. -/
theorem normalize_ofString_toString {key root : Path} (same : (root == key) = true)
    (normal : root.normalize = root) (slashless : root.Slashless)
    (absolute : root.isAbsolute = true) : (Path.ofString key.toString).normalize = root := by
  have nonempty : key.segments ≠ [] := by
    intro none
    rw [Path.isAbsolute_congr same, Path.isAbsolute, Path.components_eq_mark, none] at absolute
    exact absurd absolute (by decide)
  rw [Path.ofString_toString nonempty (slashless.congr same), ← Path.normalize_congr same, normal]

/-- **The stored imports give back the imports**, as far as they are folders still. -/
theorem contains_wantedImports_settings (h : project.Storable) (rooted : project.Rooted)
    (normal : project.Everywhere fun set => set.root.normalize = set.root)
    (named : disk.isWellNamed = true)
    (folders : ∀ (root : Path) (set : RootFiles), project.imports[root]? = some set →
      disk.isFolder set.root = true)
    (base : ProjectSettings) (path : Path) :
    (wantedImports disk (project.settings base).imports).contains path =
      project.imports.contains path := by
  -- Every key is read back as the root that stands under it.
  have read : ∀ key ∈ project.imports.keys, ∃ root : Path, (root == key) = true ∧
      root.isAbsolute = true ∧ disk.isFolder root = true ∧
        (Path.ofString key.toString).normalize = root := by
    intro key listed
    have imported : project.imports.contains key = true := by
      rw [← Std.ExtTreeMap.contains_keys]
      exact List.contains_iff_exists_mem_beq.2 ⟨key, listed, BEq.rfl⟩
    have absolute := h.absolute key imported
    obtain ⟨set, found⟩ := contains_imports_iff.1 imported
    have same := rooted.keys key set found
    rw [← Path.isAbsolute_congr same] at absolute
    have folder := folders key set found
    exact ⟨set.root, same, absolute, folder, normalize_ofString_toString same
      (normal (some key) set found) (Disk.slashless_of_isFolder named folder) absolute⟩
  rw [wantedImports, PathSet.contains_collect, Bool.eq_iff_iff, List.contains_iff_exists_mem_beq,
    ← Std.ExtTreeMap.contains_keys, List.contains_iff_exists_mem_beq, settings]
  simp only [List.map_map, List.mem_filter, List.mem_map, Function.comp_apply]
  constructor
  · rintro ⟨_, ⟨⟨key, listed, rfl⟩, -⟩, here⟩
    obtain ⟨root, same, -, -, back⟩ := read key listed
    rw [back] at here
    exact ⟨key, listed, BEq.trans here same⟩
  · rintro ⟨key, listed, here⟩
    obtain ⟨root, same, absolute, folder, back⟩ := read key listed
    refine ⟨root, ⟨⟨key, listed, back⟩, ?_⟩, BEq.trans here (BEq.symm same)⟩
    rw [absolute, folder]
    rfl

theorem ofList_toList_hiddenNames (names : Std.ExtTreeSet String compare) :
    Std.ExtTreeSet.ofList names.toList compare = names := by
  apply Std.ExtTreeSet.ext_contains
  intro name
  rw [Std.ExtTreeSet.contains_ofList, Std.ExtTreeSet.contains_toList]

end Project

end SvServer
