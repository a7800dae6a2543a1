import SvServer.Proofs.Project.Discovery
import SvServer.Proofs.Project.Excluding
import SvServer.Proofs.Project.Splitting

/-!
# The files and exclusions of one root

Whatever is done to the files of one root, its tracked files and its exclusions stay beneath it.
Which files are included is kept as a flag, and only a walk sets it; so after every operation no
included file may be excluded. An inclusion that fails half way makes no walk, and needs none: all
that it excludes lies beneath an exclusion that it takes away.
-/

namespace SvServer.RootFiles

variable {set : RootFiles} {disk : Disk} {path : Path}

/-- A path is excluded when it lies at or beneath a member of the exclusions. -/
theorem isExcluded_iff {file : Path} : set.isExcluded file = true ↔
    ∃ path, set.excluded.contains path = true ∧ file.isUnder path = true := by
  constructor
  · intro excluded
    obtain ⟨cover, listed, beneath⟩ := List.any_eq_true.1 excluded
    exact ⟨cover, PathSet.contains_of_mem_toList listed, beneath⟩
  · rintro ⟨path, member, beneath⟩
    obtain ⟨cover, listed, same⟩ := PathSet.exists_mem_toList member
    exact Path.isCoveredBy_of_mem beneath listed same

/-! ## What stays beneath the root -/

/-- All that is known of a root lies beneath it. -/
structure Rooted (set : RootFiles) : Prop where
  normal : set.root.IsNormal
  files : ∀ file, set.isIncluded file = true → file.isUnder set.root = true
  excluded : ∀ path, set.excluded.contains path = true → path.isUnder set.root = true

/-- No included file is excluded. -/
def Exact (set : RootFiles) : Prop :=
  ∀ file, set.isIncluded file = true → set.isExcluded file = false

/-- The files of a root before any walk are none. -/
theorem isIncluded_ofRoot (root : Path) (limits : DiscoveryLimits) (file : Path) :
    (ofRoot root limits).isIncluded file = false := by
  rw [isIncluded, ofRoot, Std.ExtTreeMap.getElem?_empty]
  rfl

theorem rooted_ofRoot (root : Path) (limits : DiscoveryLimits) : (ofRoot root limits).Rooted where
  normal := root.isNormal_normalize
  files file included := by
    rw [isIncluded_ofRoot] at included
    exact absurd included Bool.false_ne_true
  excluded _ member := absurd member PathSet.not_contains_empty

/-- Other exclusions beneath the root. -/
theorem Rooted.withExcluded (h : set.Rooted) {excluded : PathSet}
    (beneath : ∀ path, excluded.contains path = true → path.isUnder set.root = true) :
    Rooted { set with excluded := excluded } :=
  ⟨h.normal, h.files, beneath⟩

/-- **A walk keeps everything beneath the root.** -/
theorem Rooted.discover (h : set.Rooted) (disk : Disk) : (set.discover disk).1.Rooted where
  normal := h.normal
  files file included := by
    rw [isIncluded_discover, Bool.and_eq_true] at included
    exact disk.isUnder_of_discover h.normal _ included.1
  excluded := h.excluded

/-- **After a walk no included file is excluded.** -/
theorem exact_discover (set : RootFiles) (disk : Disk) : (set.discover disk).1.Exact := by
  intro file included
  rw [isIncluded_discover, Bool.and_eq_true, Bool.not_eq_true'] at included
  exact included.2

/-- Which stored entries a root takes as its exclusions. -/
theorem contains_setExclusions (set : RootFiles) (disk : Disk) (base : Path)
    (entries : List String) (path : Path) :
    (set.setExclusions disk base entries).excluded.contains path = true ↔
      ∃ entry ∈ entries.map fun entry => (base.join (Path.ofString entry)).normalize,
        (path == entry) = true ∧ entry.isUnder set.root = true ∧ disk.pathExists entry = true := by
  rw [setExclusions, PathSet.contains_collect, List.contains_iff_exists_mem_beq]
  simp only [List.mem_filter, Bool.and_eq_true, isUnderRoot]
  constructor
  · rintro ⟨entry, ⟨listed, usable⟩, same⟩
    exact ⟨entry, listed, same, usable⟩
  · rintro ⟨entry, listed, same, usable⟩
    exact ⟨entry, ⟨listed, usable⟩, same⟩

theorem Rooted.setExclusions (h : set.Rooted) (disk : Disk) (base : Path)
    (entries : List String) : (set.setExclusions disk base entries).Rooted := by
  refine h.withExcluded fun path member => ?_
  obtain ⟨entry, -, same, beneath, -⟩ := (contains_setExclusions set disk base entries path).1 member
  rw [Path.isUnder_congr same]
  exact beneath

/-! ## Operations -/

/-- Stopping to track a file includes no other. -/
theorem isIncluded_of_dropMissing {file : Path}
    (included : (set.dropMissing disk path).1.isIncluded file = true) :
    set.isIncluded file = true := by
  rw [dropMissing] at included
  split at included
  · exact included
  · rw [isIncluded, PathMap.getElem?_erase] at included
    split at included
    · exact absurd included (by decide)
    · exact included

/-- Only the tracked files may differ after a file was dropped. -/
theorem dropMissing_fst (set : RootFiles) (disk : Disk) (path : Path) :
    ∃ files, (set.dropMissing disk path).1 = { set with files := files } := by
  rw [dropMissing]
  split
  · exact ⟨set.files, rfl⟩
  · exact ⟨_, rfl⟩

theorem Rooted.dropMissing (h : set.Rooted) (disk : Disk) (path : Path) :
    (set.dropMissing disk path).1.Rooted := by
  obtain ⟨files, after⟩ := dropMissing_fst set disk path
  have included : ∀ file, (set.dropMissing disk path).1.isIncluded file = true →
      set.isIncluded file = true := fun _ => isIncluded_of_dropMissing
  rw [after] at included ⊢
  exact ⟨h.normal, fun file member => h.files file (included file member), h.excluded⟩

theorem Exact.dropMissing (h : set.Exact) (disk : Disk) (path : Path) :
    (set.dropMissing disk path).1.Exact := by
  obtain ⟨files, after⟩ := dropMissing_fst set disk path
  have included : ∀ file, (set.dropMissing disk path).1.isIncluded file = true →
      set.isIncluded file = true := fun _ => isIncluded_of_dropMissing
  rw [after] at included ⊢
  exact fun file member => h file (included file member)

/-- A path that an operation works on lies under the root. -/
theorem isUnder_of_validPath {valid : Path} (h : set.validPath disk path = .ok valid) :
    valid.isUnder set.root = true := by
  rw [validPath] at h
  split at h
  · cases h
  · rename_i inside
    split at h
    · cases h
    · rw [← Except.ok.inj h]
      rw [Bool.not_eq_true, Bool.not_eq_false'] at inside
      exact inside

theorem pathExists_of_validPath {valid : Path} (h : set.validPath disk path = .ok valid) :
    disk.pathExists valid = true := by
  rw [validPath] at h
  split at h
  · cases h
  · split at h
    · cases h
    · rename_i there
      rw [← Except.ok.inj h]
      rwa [Bool.not_eq_true, Bool.not_eq_false'] at there

/-- What an operation on the files of a root keeps. -/
structure Keeps (set after : RootFiles) : Prop where
  root : after.root = set.root
  rooted : set.Rooted → after.Rooted
  exact : set.Rooted → set.Exact → after.Exact

theorem Keeps.refl (set : RootFiles) : set.Keeps set := ⟨rfl, id, fun _ => id⟩

/-- A walk under exclusions that lie beneath the root. -/
theorem keeps_discover (set : RootFiles) (disk : Disk) {excluded : PathSet}
    (beneath : set.Rooted → ∀ path, excluded.contains path = true → path.isUnder set.root = true) :
    set.Keeps (RootFiles.discover { set with excluded := excluded } disk).1 where
  root := rfl
  rooted h := (h.withExcluded (beneath h)).discover disk
  exact _ _ := exact_discover _ disk

/-- **Excluding a path keeps files and exclusions in order.** -/
theorem keeps_excludePath (set : RootFiles) (disk : Disk) (path : Path) :
    set.Keeps (set.excludePath disk path).1 := by
  rw [excludePath]
  split
  · exact .refl set
  · rename_i valid accepted
    split
    · exact .refl set
    · refine keeps_discover set disk fun h other member => ?_
      rw [PathSet.contains_insert, Bool.or_eq_true] at member
      rcases member with same | member
      · rw [← Path.isUnder_congr same]
        exact isUnder_of_validPath accepted
      · exact h.excluded other (Std.ExtTreeSet.contains_of_contains_filter member)

/-- **Including a path keeps files and exclusions in order**, also when it fails half way. -/
theorem keeps_includePath (set : RootFiles) (disk : Disk) (path : Path) :
    set.Keeps (set.includePath disk path).1 := by
  rw [includePath]
  split
  · exact .refl set
  · rename_i valid _
    dsimp only
    split
    · exact keeps_discover set disk fun h other member =>
        h.excluded other (Std.ExtTreeSet.contains_of_contains_filter member)
    · rename_i above found
      have old : set.excluded.contains above = true :=
        PathSet.contains_of_mem_toList (List.mem_of_find?_eq_some found)
      have parts : ∀ other, (excludeBeside disk above
          (valid.components.drop above.components.length)
          ((set.excluded.filter fun other => !other.isUnder valid).erase above)).1.contains other
            = true → set.excluded.contains other = true ∨ other.isUnder above = true := by
        intro other member
        refine (contains_excludeBeside disk member).imp_left fun kept => ?_
        rw [PathSet.contains_erase, Bool.and_eq_true] at kept
        exact Std.ExtTreeSet.contains_of_contains_filter kept.2
      have beneath : set.Rooted → ∀ other, (excludeBeside disk above
          (valid.components.drop above.components.length)
          ((set.excluded.filter fun other => !other.isUnder valid).erase above)).1.contains other
            = true → other.isUnder set.root = true := by
        intro h other member
        rcases parts other member with kept | inside
        · exact h.excluded other kept
        · exact Path.isUnder_trans inside (h.excluded above old)
      split
      · -- No walk was made, and what is excluded now was excluded before.
        refine ⟨rfl, fun h => h.withExcluded (beneath h), fun _ exact file included => ?_⟩
        rw [Bool.eq_false_iff]
        intro excluded
        obtain ⟨other, member, covered⟩ := isExcluded_iff.1 excluded
        have before : set.isExcluded file = true := by
          rcases parts other member with kept | inside
          · exact isExcluded_iff.2 ⟨other, kept, covered⟩
          · exact isExcluded_iff.2 ⟨above, old, Path.isUnder_trans covered inside⟩
        rw [exact file included] at before
        exact absurd before (by decide)
      · exact keeps_discover set disk beneath

end SvServer.RootFiles
