import Mathlib.Data.List.Induction
import SvServer.Proofs.Project.Altering
import SvServer.Proofs.Project.Carrying
import SvServer.Proofs.Project.Walks

/-!
# Accounts of changes

Every accepted operation on the files of a root gives an account of what it changed: which files are
included and were not, which no longer are, which are tracked anew, and which are gone. A file that
is no longer tracked because a folder above it was excluded is not gone. The accounts of a run are
merged in order. What is left in the end is, for each file that was ever taken in or out, what the
last operation did that moved it.
-/

namespace SvServer

/-- What a table lists as a key is the key that it holds. -/
theorem PathMap.getKey?_of_mem_keys {β : Type} {table : PathMap β} {key : Path}
    (listed : key ∈ table.keys) : table.getKey? key = some key := by
  rw [← Std.ExtTreeMap.map_fst_toList_eq_keys] at listed
  obtain ⟨⟨_, value⟩, member, rfl⟩ := List.mem_map.1 listed
  exact (Std.ExtTreeMap.mem_toList_iff_getKey?_eq_some_and_getElem?_eq_some.1 member).1

namespace RootFiles

variable {set after : RootFiles} {disk : Disk} {file : Path}

/-! ## Tracked files are in normal form -/

/-- Whether all tracked files are kept under their normal form. -/
def NormalKeys (set : RootFiles) : Prop :=
  ∀ path key, set.files.getKey? path = some key → key.normalize = key

theorem normalKeys_of_empty (none : set.files = ∅) : set.NormalKeys := by
  intro path key held
  rw [none, Std.ExtTreeMap.getKey?_empty] at held
  cases held

/-- A walk tracks what it finds, under its normal form. -/
theorem normalKeys_discover (set : RootFiles) (disk : Disk) : (set.discover disk).1.NormalKeys := by
  have found := disk.normal_of_discover set.root ⟨set.excluded.toList, set.limits⟩
  have tracks : ∀ (paths : List Path) (files : PathMap Bool),
      (∀ path ∈ paths, path.normalize = path) →
      (∀ path key, files.getKey? path = some key → key.normalize = key) →
      ∀ path key, (paths.foldl (fun files path => files.insert path (!set.isExcluded path))
        files).getKey? path = some key → key.normalize = key := by
    intro paths
    induction paths with
    | nil => exact fun files _ known => known
    | cons first rest ih =>
        intro files normal known
        refine ih _ (fun path listed => normal path (List.mem_cons_of_mem _ listed)) ?_
        intro path key held
        rw [Std.ExtTreeMap.getKey?_insert] at held
        split at held
        · rw [← Option.some.inj held]
          exact normal first List.mem_cons_self
        · exact known path key held
  refine tracks _ ∅ found fun path key held => ?_
  rw [Std.ExtTreeMap.getKey?_empty] at held
  cases held

theorem NormalKeys.dropMissing (h : set.NormalKeys) (disk : Disk) (path : Path) :
    (set.dropMissing disk path).1.NormalKeys := by
  rw [RootFiles.dropMissing]
  split
  · exact h
  · intro other key held
    rw [Std.ExtTreeMap.getKey?_erase] at held
    split at held
    · cases held
    · exact h other key held

/-- **Tracked files stay in normal form**, whatever is done to the files of a root. -/
theorem kept_normalKeys (disk : Disk) : Kept disk NormalKeys where
  ofRoot _ _ := normalKeys_of_empty rfl
  setExclusions _ _ _ h := h
  discover set _ := normalKeys_discover set disk
  withLimits _ _ h := h
  alters set after alters h := by
    cases alters with
    | excludePath path =>
        rcases excludePath_cases set disk path with
          ⟨_, same⟩ | ⟨-, same⟩ | ⟨-, excluded, walked⟩
        · rw [same]; exact h
        · rw [same]; exact h
        · rw [walked]; exact normalKeys_discover _ disk
    | includePath path =>
        rcases includePath_cases set disk path with ⟨_, excluded, same⟩ | ⟨excluded, walked⟩
        · rw [same]; exact h
        · rw [walked]; exact normalKeys_discover _ disk
    | dropMissing path => exact h.dropMissing disk path

theorem Reached.normalKeys (h : set.Reached) : set.NormalKeys :=
  h.of_kept (fun disk _ => kept_normalKeys disk) fun _ _ => normalKeys_of_empty rfl

/-! ## The account of a walk -/

/-- What an account says of every file. -/
structure Accounts (set : RootFiles) (disk : Disk) (after : RootFiles) (delta : FileChanges) :
    Prop where
  nowIncluded : ∀ file : Path, delta.nowIncluded.contains file =
    (after.isIncluded file && !set.isIncluded file)
  nowExcluded : ∀ file : Path, delta.nowExcluded.contains file =
    (set.isIncluded file && !after.isIncluded file)
  added : ∀ file : Path, delta.added.contains file = (after.contains file && !set.contains file)
  /-- A file that still exists beneath an exclusion is not gone. -/
  removed : ∀ file : Path, delta.removed.contains file =
    (set.contains file && !after.contains file &&
      !(after.isExcluded file && disk.pathExists file.normalize))

theorem accounts_refl (set : RootFiles) (disk : Disk) : set.Accounts disk set .empty where
  nowIncluded file := by
    rw [Bool.and_not_self]
    exact Std.ExtTreeSet.contains_empty
  nowExcluded file := by
    rw [Bool.and_not_self]
    exact Std.ExtTreeSet.contains_empty
  added file := by
    rw [Bool.and_not_self]
    exact Std.ExtTreeSet.contains_empty
  removed file := by
    rw [Bool.and_not_self, Bool.false_and]
    exact Std.ExtTreeSet.contains_empty

/-- A walk tracks exactly what it finds. -/
theorem contains_discover (set : RootFiles) (disk : Disk) (file : Path) :
    (set.discover disk).1.contains file =
      (disk.discover set.root ⟨set.excluded.toList, set.limits⟩).files.contains file := by
  rw [contains, Std.ExtTreeMap.contains_eq_isSome_getElem?, getElem?_discover]
  cases (disk.discover set.root ⟨set.excluded.toList, set.limits⟩).files.contains file <;> rfl

/-- **What a walk says is gone**: what was tracked and no longer is, but for the files that exist
beneath an exclusion. -/
theorem contains_removed_discover (h : set.NormalKeys) (disk : Disk) (file : Path) :
    (set.discover disk).2.removed.contains file =
      (set.contains file && !(set.discover disk).1.contains file &&
        !(set.isExcluded file && disk.pathExists file.normalize)) := by
  let gone : PathSet := PathSet.collect set.files.keys \
    (disk.discover set.root ⟨set.excluded.toList, set.limits⟩).files
  have lost : gone.contains file = (set.contains file && !(set.discover disk).1.contains file) := by
    rw [contains_discover, PathSet.contains_diff, PathSet.contains_collect,
      Std.ExtTreeMap.contains_keys]
    rfl
  have normal : ∀ key ∈ gone.toList, key.normalize = key := by
    intro key listed
    rcases PathSet.mem_toList_extend (PathSet.mem_toList_diff listed) with member | none
    · exact h key key (PathMap.getKey?_of_mem_keys (List.mem_reverse.1 member))
    · exact absurd none nofun
  have plain : gone.Plain := by
    intro key listed
    rw [← normal key listed]
    exact key.isPlain_normalize
  rw [← lost]
  show (gone.filter fun path => !(set.isExcluded path && disk.pathExists path)).contains file = _
  cases there : gone.contains file with
  | false =>
      rw [Bool.false_and, Bool.eq_false_iff]
      intro kept
      rw [Std.ExtTreeSet.contains_of_contains_filter kept] at there
      cases there
  | true =>
      -- Whether a path exists depends on its spelling, and the file is held in normal form.
      obtain ⟨key, listed, same⟩ := PathSet.exists_mem_toList there
      have spelled : file.normalize = key := by
        rw [Path.normalize_congr same, normal key listed]
      rw [PathSet.contains_congr _ same, plain.contains_filter _ (plain key listed),
        PathSet.contains_of_mem_toList listed, set.isExcluded_congr same, spelled]

/-- **The account of a walk** under other exclusions. -/
theorem accounts_discover (h : set.NormalKeys) (disk : Disk) (excluded : PathSet) :
    set.Accounts disk (RootFiles.discover { set with excluded := excluded } disk).1
      (RootFiles.discover { set with excluded := excluded } disk).2 where
  nowIncluded file := contains_nowIncluded_discover { set with excluded := excluded } disk file
  nowExcluded file := contains_nowExcluded_discover { set with excluded := excluded } disk file
  added file := by
    rw [contains_discover]
    show (_ \ PathSet.collect set.files.keys : PathSet).contains file = _
    rw [PathSet.contains_diff, PathSet.contains_collect, Std.ExtTreeMap.contains_keys]
    rfl
  removed file := by
    have other : NormalKeys { set with excluded := excluded } := h
    exact contains_removed_discover other disk file

/-! ## Operations -/

/-- What can be asked of the files of a root. -/
inductive Operation where
  | discover
  | excludePath (path : Path)
  | includePath (path : Path)

/-- An operation on the files of a root. -/
def perform (set : RootFiles) (disk : Disk) :
    Operation → RootFiles × Except ProjectError FileChanges
  | .discover => ((set.discover disk).1, .ok (set.discover disk).2)
  | .excludePath path => set.excludePath disk path
  | .includePath path => set.includePath disk path

/-- What an operation comes to: an account of what it changed, or a refusal that leaves the files. -/
theorem perform_cases (h : set.NormalKeys) (disk : Disk) (operation : Operation) :
    (∃ delta, (set.perform disk operation).2 = .ok delta ∧
      set.Accounts disk (set.perform disk operation).1 delta) ∨
    (∃ error, (set.perform disk operation).2 = .error error) ∧
      (set.perform disk operation).1.files = set.files := by
  cases operation with
  | discover => exact .inl ⟨_, rfl, accounts_discover h disk set.excluded⟩
  | excludePath path =>
      rw [perform]
      rcases excludePath_cases set disk path with
        ⟨error, refused⟩ | ⟨-, already⟩ | ⟨-, excluded, walked⟩
      · rw [refused]
        exact .inr ⟨⟨error, rfl⟩, rfl⟩
      · rw [already]
        exact .inl ⟨_, rfl, accounts_refl set disk⟩
      · rw [walked]
        exact .inl ⟨_, rfl, accounts_discover h disk excluded⟩
  | includePath path =>
      rw [perform]
      rcases includePath_cases set disk path with ⟨error, excluded, refused⟩ | ⟨excluded, walked⟩
      · rw [refused]
        exact .inr ⟨⟨error, rfl⟩, rfl⟩
      · rw [walked]
        exact .inl ⟨_, rfl, accounts_discover h disk excluded⟩

theorem NormalKeys.perform (h : set.NormalKeys) (disk : Disk) (operation : Operation) :
    (set.perform disk operation).1.NormalKeys := by
  cases operation with
  | discover => exact normalKeys_discover set disk
  | excludePath path => exact (kept_normalKeys disk).alters _ _ (.excludePath path) h
  | includePath path => exact (kept_normalKeys disk).alters _ _ (.includePath path) h

/-! ## Runs -/

/-- One operation of a run, with the disk as it is by then: the files after it, and the account that
it gives unless it is refused. -/
def step (set : RootFiles) (item : Disk × Operation) : RootFiles × List FileChanges :=
  match set.perform item.1 item.2 with
  | (after, .ok delta) => (after, [delta])
  | (after, .error _) => (after, [])

/-- The accounts of a run as one. -/
def merged (deltas : List FileChanges) : FileChanges := deltas.foldl FileChanges.merge .empty

theorem merged_concat (deltas : List FileChanges) (delta : FileChanges) :
    merged (deltas ++ [delta]) = (merged deltas).merge delta := by
  rw [merged, List.foldl_append]
  rfl

theorem contains_nowIncluded_merge (earlier later : FileChanges) (file : Path) :
    (earlier.merge later).nowIncluded.contains file =
      ((earlier.nowIncluded.contains file || later.nowIncluded.contains file) &&
        !later.nowExcluded.contains file) := by
  rw [FileChanges.merge, PathSet.contains_diff, PathSet.contains_join]

/-- Whether the last operation of a run that moved the file in or out moved it that way: from then on
it stayed so. -/
def LastMoved (set : RootFiles) (run : List (Disk × Operation)) (file : Path) (into : Bool) : Prop :=
  ∃ front item back, run = front ++ item :: back ∧
    (Row.after step set front).isIncluded file = !into ∧
    ∀ between, between <+: back →
      (Row.after step set (front ++ item :: between)).isIncluded file = into

section Runs

variable {run : List (Disk × Operation)} {item : Disk × Operation} {into : Bool}

/-- What was moved last stands in the end. -/
theorem LastMoved.isIncluded (h : set.LastMoved run file into) :
    (Row.after step set run).isIncluded file = into := by
  obtain ⟨front, item, back, rfl, -, stays⟩ := h
  exact stays back (List.prefix_refl back)

/-- The last operation of a run moves the file, or leaves it as one before it has moved it. -/
theorem lastMoved_concat_iff : set.LastMoved (run ++ [item]) file into ↔
    (Row.after step set (run ++ [item])).isIncluded file = into ∧
      ((Row.after step set run).isIncluded file = !into ∨ set.LastMoved run file into) := by
  constructor
  · intro moved
    refine ⟨moved.isIncluded, ?_⟩
    obtain ⟨front, mover, back, whole, before, stays⟩ := moved
    cases back using List.reverseRecOn with
    | nil =>
        obtain ⟨rfl, -⟩ := List.append_inj' whole rfl
        exact .inl before
    | append_singleton back last =>
        have parts : run ++ [item] = (front ++ mover :: back) ++ [last] := by rw [whole]; simp
        obtain ⟨rfl, -⟩ := List.append_inj' parts rfl
        exact .inr ⟨front, mover, back, rfl, before, fun between begins =>
          stays between (begins.trans (List.prefix_append back [last]))⟩
  · rintro ⟨now, before | ⟨front, mover, back, rfl, before, stays⟩⟩
    · refine ⟨run, item, [], rfl, before, fun between begins => ?_⟩
      rw [List.prefix_nil.1 begins]
      exact now
    · refine ⟨front, mover, back ++ [item], by simp, before, fun between begins => ?_⟩
      rcases List.prefix_concat_iff.1 begins with rfl | earlier
      · rw [← List.cons_append, ← List.append_assoc]
        exact now
      · exact stays between earlier

/-- **Where the status of a file has changed, some operation has moved it last.** -/
theorem lastMoved_of_ne (differs : (Row.after step set run).isIncluded file ≠ set.isIncluded file) :
    set.LastMoved run file ((Row.after step set run).isIncluded file) := by
  induction run using List.reverseRecOn with
  | nil => exact absurd rfl differs
  | append_singleton run item ih =>
      rw [lastMoved_concat_iff]
      refine ⟨rfl, ?_⟩
      by_cases same : (Row.after step set (run ++ [item])).isIncluded file =
          (Row.after step set run).isIncluded file
      · rw [same] at differs ⊢
        exact .inr (ih differs)
      · exact .inl (Bool.eq_not_of_ne (Ne.symm same))

/-- What one operation adds to the accounts of the run before it. -/
theorem step_cases (h : set.NormalKeys) (item : Disk × Operation) :
    (∃ delta, (step set item).2 = [delta] ∧ set.Accounts item.1 (step set item).1 delta) ∨
    (step set item).2 = [] ∧
      ∀ file, (step set item).1.isIncluded file = set.isIncluded file := by
  have cases' := perform_cases h item.1 item.2
  rw [step]
  generalize set.perform item.1 item.2 = outcome at cases'
  obtain ⟨after, result⟩ := outcome
  rcases cases' with ⟨delta, rfl, accounts⟩ | ⟨⟨error, rfl⟩, kept⟩
  · exact .inl ⟨delta, rfl, accounts⟩
  · refine .inr ⟨rfl, fun file => ?_⟩
    show (after.files[file]?).getD false = _
    rw [kept]
    rfl

theorem NormalKeys.after_run (h : set.NormalKeys) (run : List (Disk × Operation)) :
    (Row.after step set run).NormalKeys := by
  induction run using List.reverseRecOn with
  | nil => exact h
  | append_singleton run item ih =>
      rw [Row.after_concat, step]
      have kept := ih.perform item.1 item.2
      split
      · rename_i same
        rw [same] at kept
        exact kept
      · rename_i same
        rw [same] at kept
        exact kept

/-- **The merged accounts of a run say, for each file, what the last operation did that moved it.** -/
theorem contains_merged (h : set.NormalKeys) (run : List (Disk × Operation)) (file : Path) :
    ((merged (Row.told step set run)).nowIncluded.contains file = true ↔
      set.LastMoved run file true) ∧
    ((merged (Row.told step set run)).nowExcluded.contains file = true ↔
      set.LastMoved run file false) := by
  induction run using List.reverseRecOn with
  | nil =>
      have unmoved : ∀ into, ¬set.LastMoved [] file into := by
        rintro into ⟨front, item, back, whole, -⟩
        exact List.append_ne_nil_of_right_ne_nil front (List.cons_ne_nil _ _) whole.symm
      exact ⟨iff_of_false PathSet.not_contains_empty (unmoved true),
        iff_of_false PathSet.not_contains_empty (unmoved false)⟩
  | append_singleton run item ih =>
      rw [lastMoved_concat_iff, lastMoved_concat_iff, ← ih.1, ← ih.2, Row.told_concat,
        Row.after_concat]
      -- Before this operation, the accounts agree with the status of the file.
      have stands : (merged (Row.told step set run)).nowIncluded.contains file = true →
          (Row.after step set run).isIncluded file = true := fun told => (ih.1.1 told).isIncluded
      have stands' : (merged (Row.told step set run)).nowExcluded.contains file = true →
          (Row.after step set run).isIncluded file = false := fun told => (ih.2.1 told).isIncluded
      rcases step_cases (h.after_run run) item with ⟨delta, tells, accounts⟩ | ⟨tells, kept⟩
      · rw [tells, merged_concat, contains_nowIncluded_merge,
          FileChanges.contains_nowExcluded_merge, accounts.nowIncluded, accounts.nowExcluded]
        revert stands stands'
        cases (merged (Row.told step set run)).nowIncluded.contains file <;>
          cases (merged (Row.told step set run)).nowExcluded.contains file <;>
          cases (Row.after step set run).isIncluded file <;>
          cases (step (Row.after step set run) item).1.isIncluded file <;> decide
      · rw [tells, List.append_nil, kept]
        revert stands stands'
        cases (merged (Row.told step set run)).nowIncluded.contains file <;>
          cases (merged (Row.told step set run)).nowExcluded.contains file <;>
          cases (Row.after step set run).isIncluded file <;> decide

/-- What the merged accounts of a run say of every file. -/
structure Sums (set : RootFiles) (run : List (Disk × Operation)) (final : RootFiles)
    (total : FileChanges) : Prop where
  lastIn : ∀ file : Path, total.nowIncluded.contains file = true ↔ set.LastMoved run file true
  lastOut : ∀ file : Path, total.nowExcluded.contains file = true ↔ set.LastMoved run file false
  isIn : ∀ file : Path, total.nowIncluded.contains file = true → final.isIncluded file = true
  isOut : ∀ file : Path, total.nowExcluded.contains file = true → final.isIncluded file = false
  apart : ∀ file : Path,
    ¬(total.nowIncluded.contains file = true ∧ total.nowExcluded.contains file = true)
  complete : ∀ file : Path, final.isIncluded file ≠ set.isIncluded file →
    (if final.isIncluded file then total.nowIncluded else total.nowExcluded).contains file = true

theorem sums_run (h : set.NormalKeys) (run : List (Disk × Operation)) :
    set.Sums run (Row.after step set run) (merged (Row.told step set run)) where
  lastIn file := (contains_merged h run file).1
  lastOut file := (contains_merged h run file).2
  isIn file told := ((contains_merged h run file).1.1 told).isIncluded
  isOut file told := ((contains_merged h run file).2.1 told).isIncluded
  apart file := by
    rintro ⟨told, told'⟩
    have included := ((contains_merged h run file).1.1 told).isIncluded
    rw [((contains_merged h run file).2.1 told').isIncluded] at included
    cases included
  complete file differs := by
    have moved := lastMoved_of_ne differs
    cases status : (Row.after step set run).isIncluded file with
    | true => exact (contains_merged h run file).1.2 (status ▸ moved)
    | false => exact (contains_merged h run file).2.2 (status ▸ moved)

/-- **Accounts are exact**: the account of an operation says what it changed, and the merged accounts
of a run say of every file what the last operation did that moved it. -/
theorem accounts_of_operations (h : set.Reached) :
    (∀ disk operation after delta, set.perform disk operation = (after, .ok delta) →
      set.Accounts disk after delta) ∧
    ∀ run, set.Sums run (Row.after step set run) (merged (Row.told step set run)) := by
  refine ⟨fun disk operation after delta accepted => ?_, sums_run h.normalKeys⟩
  rcases perform_cases h.normalKeys disk operation with ⟨other, told, accounts⟩ | ⟨⟨_, refused⟩, -⟩
  · rw [accepted] at told accounts
    rwa [← Except.ok.inj told] at accounts
  · rw [accepted] at refused
    cases refused

/-- A disk with one file, and another one with none. -/
def fileDisk (inside : Folder) : Disk where
  top := .folder "p" true inside .empty
  current := .ofString "/"
  now := 1

/-- A file is found, excluded, and deleted while it is excluded. -/
def deletingRun : List (Disk × Operation) :=
  let there := fileDisk (.file "top.sv" ⟨some "module top;\nendmodule\n", 23, 0⟩ .empty)
  [(there, .discover), (there, .excludePath (.ofString "/p/top.sv")), (fileDisk .empty, .discover)]

/-- What the accounts of this run say: the file went out, and it is gone. -/
theorem sums_deletingRun : (ofRoot (.ofString "/p") ⟨10, 10⟩).Reached ∧
    (ofRoot (.ofString "/p") ⟨10, 10⟩).Sums deletingRun
      (Row.after step (ofRoot (.ofString "/p") ⟨10, 10⟩) deletingRun)
      (merged (Row.told step (ofRoot (.ofString "/p") ⟨10, 10⟩) deletingRun)) ∧
    (merged (Row.told step (ofRoot (.ofString "/p") ⟨10, 10⟩) deletingRun)).nowExcluded.contains
      (.ofString "/p/top.sv") = true ∧
    (merged (Row.told step (ofRoot (.ofString "/p") ⟨10, 10⟩) deletingRun)).removed.contains
      (.ofString "/p/top.sv") = true := by
  have reached : (ofRoot (.ofString "/p") ⟨10, 10⟩).Reached := .ofRoot _ _
  exact ⟨reached, (accounts_of_operations reached).2 deletingRun, by decide +kernel,
    by decide +kernel⟩

end Runs

end RootFiles

end SvServer
