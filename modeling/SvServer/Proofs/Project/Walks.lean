import Mathlib.Data.List.Induction
import SvServer.Proofs.Project.Discovery

/-!
# Walks as rows of entries

A walk goes through the entries beneath its root in the order of the listings, each folder before
what is in it. Which entries it comes by depends on names and exclusions only; the limits decide how
far along this row it gets. It ends with all of it seen, or at the first entry too many, or at the
first hardware file for which there is no room.
-/

namespace SvServer

/-- Where names lead from a path. -/
def Path.down (path : Path) (names : List String) : Path := names.foldl child path

/-- An entry that a walk comes by: the names that lead to it, and whether it is a file. -/
structure Sight where
  names : List String
  isFile : Bool

namespace Sight

/-- The entry as it is seen from around the folder that it lies in. -/
def inside (name : String) (sight : Sight) : Sight := ⟨name :: sight.names, sight.isFile⟩

/-- Whether the entry is one of the files that a walk looks for. -/
def isHdlFile (root : Path) (sight : Sight) : Bool := sight.isFile && (root.down sight.names).isHdl

end Sight

/-! ## The row of a walk -/

/-- What a walk comes by in a folder. -/
def Folder.sights (excluded : List Path) (path : Path) : Folder → List Sight
  | .empty => []
  | .file name _ rest =>
    (if isHidden name then [] else [⟨[name], true⟩]) ++ rest.sights excluded path
  | .folder name readable inside rest =>
    let here := path.child name
    (if isHidden name || here.isCoveredBy excluded then []
      else ⟨[name], false⟩ ::
        if readable then (inside.sights excluded here).map (Sight.inside name) else []) ++
      rest.sights excluded path

/-- What a walk comes by at an entry, which itself counts. -/
def DiskEntry.sights (excluded : List Path) (path : Path) : DiskEntry → List Sight
  | .file _ => [⟨[], true⟩]
  | .folder readable inside =>
    if path.isCoveredBy excluded then []
    else ⟨[], false⟩ :: if readable then inside.sights excluded path else []

/-- Of each entry that is not passed over, a folder shows what the entry shows. -/
theorem Folder.sights_cons (excluded : List Path) (path : Path) (name : String) (entry : DiskEntry)
    (rest : Folder) : (Folder.cons name entry rest).sights excluded path =
      (if isHidden name then []
        else (entry.sights excluded (path.child name)).map (Sight.inside name)) ++
      rest.sights excluded path := by
  cases entry with
  | file contents => rfl
  | folder readable inside =>
      rw [cons, sights, DiskEntry.sights]
      congr 1
      cases isHidden name
      · cases (path.child name).isCoveredBy excluded
        · cases readable <;> rfl
        · rfl
      · rfl

namespace Discovery

variable {rules : DiscoveryRules} {root : Path} {scan : Discovery}

/-- What a walk does at an entry. -/
def see (rules : DiscoveryRules) (root : Path) (scan : Discovery) (sight : Sight) : Discovery :=
  if sight.isFile then (scan.visit rules).collect rules (root.down sight.names)
  else scan.visit rules

theorem visit_of_stopped (stopped : scan.isStopped = true) : scan.visit rules = scan := by
  rw [visit, if_pos stopped]

theorem see_of_stopped (stopped : scan.isStopped = true) (sight : Sight) :
    scan.see rules root sight = scan := by
  rw [see, visit_of_stopped stopped, collect, stopped]
  split <;> rfl

theorem foldl_see_of_stopped (stopped : scan.isStopped = true) (sights : List Sight) :
    sights.foldl (see rules root) scan = scan := by
  induction sights with
  | nil => rfl
  | cons first rest ih => rw [List.foldl_cons, see_of_stopped stopped, ih]

end Discovery

open Discovery

/-- The walk of a folder goes along its row. -/
theorem Folder.discover_eq (rules : DiscoveryRules) (path : Path) (folder : Folder)
    (scan : Discovery) : folder.discover rules path scan =
      (folder.sights rules.excluded path).foldl (see rules path) scan := by
  induction folder generalizing path scan with
  | empty => rfl
  | file name contents rest ih =>
      rw [discover, sights, List.foldl_append, ih]
      cases isHidden name <;> rfl
  | folder name readable inside rest ihInside ihRest =>
      rw [discover, sights, List.foldl_append, ihRest]
      congr 1
      cases hidden : isHidden name || (path.child name).isCoveredBy rules.excluded with
      | true => rfl
      | false =>
          -- The folder itself is visited, unless the walk has stopped before.
          rw [Bool.false_or, if_neg Bool.false_ne_true, List.foldl_cons]
          cases stopped : scan.isStopped with
          | true => rw [if_pos rfl, see_of_stopped stopped, foldl_see_of_stopped stopped]
          | false =>
              rw [if_neg Bool.false_ne_true]
              cases readable with
              | false => rfl
              | true =>
                  rw [if_pos rfl, if_pos rfl, ihInside, List.foldl_map]
                  rfl

/-- **A walk goes along the row of its root.** -/
theorem Disk.discover_eq (disk : Disk) (root : Path) (rules : DiscoveryRules) :
    disk.discover root rules =
      (((disk.entry? root).map fun top => top.sights rules.excluded root).getD []).foldl
        (see rules root) .empty := by
  rw [discover]
  cases disk.entry? root with
  | none => rfl
  | some top =>
      cases top with
      | file contents => rfl
      | folder readable inside =>
          rw [Option.map_some, Option.getD_some, DiskEntry.sights]
          dsimp only
          cases root.isCoveredBy rules.excluded with
          | true => rfl
          | false =>
              cases readable with
              | false => rfl
              | true => exact Folder.discover_eq rules root inside _

namespace Discovery

variable {rules : DiscoveryRules} {root : Path} {scan : Discovery} {seen sights : List Sight}

/-! ## How far a walk gets -/

/-- Of the entries seen, a walk has the hardware files, and not more of them than it may. -/
structure Collects (rules : DiscoveryRules) (root : Path) (seen : List Sight) (scan : Discovery) :
    Prop where
  files : ∀ file : Path, scan.files.contains file = true ↔
    ∃ sight ∈ seen, sight.isHdlFile root = true ∧ ((root.down sight.names).normalize == file) = true
  fits : scan.files.size ≤ rules.limits.files

/-- Where on its row a walk ends, and why. -/
inductive Ends (rules : DiscoveryRules) (root : Path) (sights : List Sight) (scan : Discovery) : Prop
  /-- All entries are seen. -/
  | whole (limitHit : scan.limitHit = none) (visited : scan.visited = sights.length)
      (few : sights.length ≤ rules.limits.entries) (collects : Collects rules root sights scan)
  /-- The next entry is one too many. -/
  | entries {seen rest : List Sight} {next : Sight} (parts : sights = seen ++ next :: rest)
      (limitHit : scan.limitHit = some rules.limits.entries)
      (visited : scan.visited = seen.length + 1) (full : seen.length = rules.limits.entries)
      (collects : Collects rules root seen scan)
  /-- The next entry is a hardware file too many. -/
  | files {seen rest : List Sight} {next : Sight} (parts : sights = seen ++ next :: rest)
      (limitHit : scan.limitHit = some rules.limits.files)
      (visited : scan.visited = seen.length + 1) (few : seen.length < rules.limits.entries)
      (hdl : next.isHdlFile root = true) (full : scan.files.size = rules.limits.files)
      (collects : Collects rules root seen scan)

theorem collects_empty (rules : DiscoveryRules) (root : Path) : Collects rules root [] .empty where
  files _ := iff_of_false PathSet.not_contains_empty nofun
  fits := Nat.zero_le _

/-- Whether an entry is collected depends on the files of the walk only. -/
theorem Collects.congr {other : Discovery} (h : Collects rules root seen scan)
    (same : other.files = scan.files) : Collects rules root seen other where
  files file := by rw [same]; exact h.files file
  fits := by rw [same]; exact h.fits

theorem Collects.passes (h : Collects rules root seen scan) {sight : Sight}
    (other : sight.isHdlFile root = false) : Collects rules root (seen ++ [sight]) scan where
  files file := by
    rw [h.files]
    constructor
    · rintro ⟨held, listed, found⟩
      exact ⟨held, List.mem_append_left _ listed, found⟩
    · rintro ⟨held, listed, found⟩
      rcases List.mem_append.1 listed with listed | last
      · exact ⟨held, listed, found⟩
      · rw [List.mem_singleton.1 last, other] at found
        exact absurd found.1 Bool.false_ne_true
  fits := h.fits

theorem Collects.takes (h : Collects rules root seen scan) {sight : Sight} {after : Discovery}
    (hdl : sight.isHdlFile root = true) (room : scan.files.size < rules.limits.files)
    (taken : after.files = scan.files.insert (root.down sight.names).normalize) :
    Collects rules root (seen ++ [sight]) after where
  files file := by
    rw [taken, PathSet.contains_insert, Bool.or_eq_true, h.files]
    constructor
    · rintro (same | ⟨held, listed, found⟩)
      · exact ⟨sight, List.mem_append_right _ List.mem_cons_self, hdl, same⟩
      · exact ⟨held, List.mem_append_left _ listed, found⟩
    · rintro ⟨held, listed, found⟩
      rcases List.mem_append.1 listed with listed | last
      · exact .inr ⟨held, listed, found⟩
      · rw [List.mem_singleton.1 last] at found
        exact .inl found.2
  fits := by
    rw [taken]
    exact Nat.le_trans Std.ExtTreeSet.size_insert_le room

/-- A walk that has visited as many entries as it may stops at the next one. -/
theorem see_of_full (going : scan.limitHit = none) (full : rules.limits.entries ≤ scan.visited)
    (sight : Sight) : scan.see rules root sight =
      { scan with visited := scan.visited + 1, limitHit := some rules.limits.entries } := by
  have stops : scan.visit rules =
      { scan with visited := scan.visited + 1, limitHit := some rules.limits.entries } := by
    rw [visit, isStopped, going, if_neg (by decide), if_pos (Nat.lt_succ_of_le full)]
  rw [see, collect, stops]
  split <;> rfl

/-- A walk that may visit another entry collects it if it is a hardware file, or stops if it has as
many of them as it may. -/
theorem see_of_room (going : scan.limitHit = none) (room : scan.visited < rules.limits.entries)
    (sight : Sight) : scan.see rules root sight =
      if sight.isHdlFile root then
        if rules.limits.files ≤ scan.files.size then
          { scan with visited := scan.visited + 1, limitHit := some rules.limits.files }
        else { scan with
          visited := scan.visited + 1
          files := scan.files.insert (root.down sight.names).normalize }
      else { scan with visited := scan.visited + 1 } := by
  have visits : scan.visit rules = { scan with visited := scan.visited + 1 } := by
    rw [visit, isStopped, going, if_neg (by decide), if_neg (Nat.not_lt_of_le room)]
  have moving : isStopped { scan with visited := scan.visited + 1 } = false := by
    rw [isStopped, going]
    rfl
  rw [see, collect, visits, moving, Sight.isHdlFile]
  cases sight.isFile with
  | false => rfl
  | true => cases (root.down sight.names).isHdl <;> rfl

/-- One more entry on the row. -/
theorem Ends.step (h : Ends rules root sights scan) (sight : Sight) :
    Ends rules root (sights ++ [sight]) (scan.see rules root sight) := by
  cases h with
  | entries parts limitHit visited full collects =>
      rw [see_of_stopped (by rw [isStopped, limitHit]; rfl), parts, List.append_assoc]
      exact .entries rfl limitHit visited full collects
  | files parts limitHit visited few hdl full collects =>
      rw [see_of_stopped (by rw [isStopped, limitHit]; rfl), parts, List.append_assoc]
      exact .files rfl limitHit visited few hdl full collects
  | whole limitHit visited few collects =>
      have longer : (sights ++ [sight]).length = sights.length + 1 := List.length_append
      rcases Nat.lt_or_eq_of_le few with room | full
      · rw [see_of_room limitHit (visited ▸ room)]
        cases hdl : sight.isHdlFile root with
        | false =>
            rw [if_neg Bool.false_ne_true]
            exact .whole limitHit (by rw [longer, visited]) (longer ▸ room)
              ((collects.passes hdl).congr rfl)
        | true =>
            by_cases crowded : rules.limits.files ≤ scan.files.size
            · rw [if_pos rfl, if_pos crowded]
              exact .files rfl rfl (by rw [visited]) room hdl
                (Nat.le_antisymm collects.fits crowded) (collects.congr rfl)
            · rw [if_pos rfl, if_neg crowded]
              exact .whole limitHit (by rw [longer, visited]) (longer ▸ room)
                (collects.takes hdl (Nat.lt_of_not_le crowded) rfl)
      · rw [see_of_full limitHit (Nat.le_of_eq (full.symm.trans visited.symm))]
        exact .entries rfl rfl (by rw [visited]) full (collects.congr rfl)

/-- **How far a walk gets along its row.** -/
theorem ends_foldl_see (rules : DiscoveryRules) (root : Path) (sights : List Sight) :
    Ends rules root sights (sights.foldl (see rules root) .empty) := by
  induction sights using List.reverseRecOn with
  | nil => exact .whole rfl rfl (Nat.zero_le _) (collects_empty rules root)
  | append_singleton sights sight ih =>
      rw [List.foldl_append]
      exact ih.step sight

/-! ## What is collected -/

/-- An entry is collected under its normal form. -/
theorem mem_toList_see {sight : Sight} {path : Path}
    (listed : path ∈ (scan.see rules root sight).files.toList) :
    path.normalize = path ∨ path ∈ scan.files.toList := by
  have visited : path ∈ (scan.visit rules).files.toList → path ∈ scan.files.toList := by
    rw [files_visit]
    exact id
  rw [see] at listed
  split at listed
  · rw [collect] at listed
    split at listed
    · exact .inr (visited listed)
    · split at listed
      · exact .inr (visited listed)
      · rcases PathSet.mem_toList_insert listed with rfl | before
        · exact .inl (Path.normalize_normalize _)
        · exact .inr (visited before)
  · exact .inr (visited listed)

end Discovery

/-- **A walk lists all that it has found in normal form.** -/
theorem Disk.normal_of_discover (disk : Disk) (root : Path) (rules : DiscoveryRules) :
    ∀ path ∈ (disk.discover root rules).files.toList, path.normalize = path := by
  rw [discover_eq]
  refine List.foldlRecOn (motive := fun scan : Discovery =>
    ∀ path ∈ scan.files.toList, path.normalize = path) _ _ nofun ?_
  intro scan known sight _ path listed
  exact (mem_toList_see listed).elim id (known path)

end SvServer
