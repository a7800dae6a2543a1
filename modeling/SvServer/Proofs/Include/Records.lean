import Mathlib.Data.List.Induction
import SvServer.Proofs.Include.ReadIndex

/-!
# The read index tells what was recorded last

An index is built by recording what roots read and missed, by forgetting roots and by clearing all. What
it tells then can be said without its four tables: a root has a record if one was made that nothing later
replaced or removed. The files and names of these records, and no others, are what the index leads to
from either end. The tables from files and from names store no empty set of roots. The set of files of
a root is stored as it was recorded, also if it is empty, so that a root that read nothing can be told
from one without a record.
-/

namespace SvServer.Include.ReadIndex

/-- What changes an index. -/
inductive Operation where
  | record (root : Path) (files : PathSet) (names : TextSet)
  | forget (root : Path)
  | clear

def perform (index : ReadIndex) : Operation → ReadIndex
  | .record root files names => index.record root files names
  | .forget root => index.forget root
  | .clear => .empty

/-- The index after a sequence of operations, from one without records. -/
def afterOperations (operations : List Operation) : ReadIndex := operations.foldl perform empty

/-! ## Records -/

/-- Whether an operation replaces or removes the record of a root. -/
def Operation.touches (root : Path) : Operation → Bool
  | .record other _ _ => other == root
  | .forget other => other == root
  | .clear => true

/-- A record of the root was made, and nothing after it touched the root. -/
def Recorded (operations : List Operation) (root : Path) (files : PathSet) (names : TextSet) : Prop :=
  ∃ before spelled after, operations = before ++ .record spelled files names :: after ∧
    (spelled == root) = true ∧ ∀ operation ∈ after, operation.touches root = false

variable {root : Path} {files : PathSet} {names : TextSet}

theorem not_recorded_nil : ¬Recorded [] root files names := by
  rintro ⟨before, spelled, after, split, -⟩
  exact List.append_ne_nil_of_right_ne_nil before (List.cons_ne_nil _ after) split.symm

/-- **One more operation** makes the record, or leaves the root alone. -/
theorem recorded_concat (operations : List Operation) (operation : Operation) :
    Recorded (operations ++ [operation]) root files names ↔
      (∃ spelled, operation = .record spelled files names ∧ (spelled == root) = true) ∨
        operation.touches root = false ∧ Recorded operations root files names := by
  constructor
  · rintro ⟨before, spelled, after, split, same, quiet⟩
    rcases List.eq_nil_or_concat after with rfl | ⟨front, last, rfl⟩
    · exact .inl ⟨spelled, List.singleton_inj.1 (List.append_inj_right' split rfl), same⟩
    · rw [List.concat_eq_append] at split quiet
      rw [← List.cons_append, ← List.append_assoc] at split
      obtain rfl := List.singleton_inj.1 (List.append_inj_right' split rfl)
      refine .inr ⟨quiet operation (List.mem_append_right _ (.head _)), before, spelled, front,
        List.append_inj_left' split rfl, same, fun other member => ?_⟩
      exact quiet other (List.mem_append_left _ member)
  · rintro (⟨spelled, rfl, same⟩ | ⟨untouched, before, spelled, after, rfl, same, quiet⟩)
    · exact ⟨operations, spelled, [], rfl, same, fun _ member => (List.not_mem_nil member).elim⟩
    · refine ⟨before, spelled, after ++ [operation], ?_, same, fun other member => ?_⟩
      · rw [List.append_assoc, List.cons_append]
      · rcases List.mem_append.1 member with member | member
        · exact quiet other member
        · rwa [List.mem_singleton.1 member]

theorem recorded_record (operations : List Operation) (other : Path) (read : PathSet)
    (missed : TextSet) :
    Recorded (operations ++ [.record other read missed]) root files names ↔
      if other == root then read = files ∧ missed = names
      else Recorded operations root files names := by
  rw [recorded_concat, Operation.touches]
  by_cases same : (other == root) = true <;> simp [same, and_assoc]

theorem recorded_forget (operations : List Operation) (other : Path) :
    Recorded (operations ++ [.forget other]) root files names ↔
      if other == root then False else Recorded operations root files names := by
  rw [recorded_concat, Operation.touches]
  by_cases same : (other == root) = true <;> simp [same]

theorem not_recorded_clear (operations : List Operation) :
    ¬Recorded (operations ++ [.clear]) root files names := by
  simp [recorded_concat, Operation.touches]

/-! ## Tables by root -/

/-- The tables by root hold the records. -/
structure Tracks (index : ReadIndex) (operations : List Operation) : Prop where
  reads : ∀ root files, index.filesOf? root = some files ↔
    ∃ names, Recorded operations root files names
  misses : ∀ root name, (index.namesOf root).contains name = true ↔
    ∃ files names, Recorded operations root files names ∧ names.contains name = true

theorem filesOf?_empty (root : Path) : empty.filesOf? root = none := Std.ExtTreeMap.getElem?_empty

theorem namesOf_empty (root : Path) : empty.namesOf root = ∅ := by
  rw [namesOf, empty, Std.ExtTreeMap.getElem?_empty]
  rfl

theorem Tracks.nil : empty.Tracks [] where
  reads root files := by simp [filesOf?_empty, not_recorded_nil]
  misses root name := by simp [namesOf_empty, not_recorded_nil]

theorem Tracks.record {index : ReadIndex} {operations : List Operation}
    (h : index.Tracks operations) (root : Path) (read : PathSet) (missed : TextSet) :
    (index.record root read missed).Tracks (operations ++ [.record root read missed]) where
  reads other files := by
    rw [filesOf?_record]
    simp only [recorded_record]
    by_cases same : (root == other) = true
    · simp [same]
    · simp [same, h.reads]
  misses other name := by
    rw [namesOf_record]
    simp only [recorded_record]
    by_cases same : (root == other) = true
    · simp [same, and_assoc]
    · simp only [same, Bool.false_eq_true, if_false, h.misses]

theorem Tracks.forget {index : ReadIndex} {operations : List Operation}
    (h : index.Tracks operations) (root : Path) :
    (index.forget root).Tracks (operations ++ [.forget root]) where
  reads other files := by
    rw [filesOf?_forget]
    simp only [recorded_forget]
    by_cases same : (root == other) = true
    · simp [same]
    · simp [same, h.reads]
  misses other name := by
    rw [namesOf_forget]
    simp only [recorded_forget]
    by_cases same : (root == other) = true
    · simp [same]
    · simp only [same, Bool.false_eq_true, if_false, h.misses]

theorem Tracks.clear (operations : List Operation) : empty.Tracks (operations ++ [.clear]) where
  reads root files := by simp [filesOf?_empty, not_recorded_clear]
  misses root name := by simp [namesOf_empty, not_recorded_clear]

/-! ## Names that are stored as missing -/

/-- The sets of names that the index stores have a name each. -/
abbrev Misses (index : ReadIndex) : Prop :=
  Stores (fun names : TextSet => names.isEmpty = false) index.missing

theorem Misses.empty : Misses empty := Stores.empty

theorem Misses.forget {index : ReadIndex} (h : index.Misses) (root : Path) :
    (index.forget root).Misses := Stores.erase h root

/-- A root that misses nothing is not stored as missing any name. -/
theorem Misses.record {index : ReadIndex} (h : index.Misses) (root : Path) (files : PathSet)
    (names : TextSet) : (index.record root files names).Misses := by
  rw [Misses, ReadIndex.record]
  split
  · exact h.forget root
  case isFalse filled => exact Stores.insert (h.forget root) root ((Bool.not_eq_true _).mp filled)

/-! ## After a sequence of operations -/

/-- What an index keeps over all operations, apart from what was recorded. -/
structure Sound (index : ReadIndex) : Prop where
  inverse : index.Inverse
  names : index.NamesInverse
  inhabits : index.Inhabits
  misses : index.Misses

theorem Sound.empty : Sound empty := ⟨.empty, .empty, .empty, .empty⟩

theorem Sound.perform {index : ReadIndex} (h : index.Sound) (operation : Operation) :
    (index.perform operation).Sound := by
  cases operation with
  | record root files names =>
      exact ⟨h.inverse.record root files names, h.names.record root files names,
        h.inhabits.record root files names, h.misses.record root files names⟩
  | forget root =>
      exact ⟨h.inverse.forget root, h.names.forget root, h.inhabits.forget root,
        h.misses.forget root⟩
  | clear => exact .empty

theorem sound_afterOperations (operations : List Operation) : (afterOperations operations).Sound :=
  List.foldlRecOn operations perform .empty fun _ sound operation _ => sound.perform operation

/-- **The tables by root hold the records that are left.** -/
theorem tracks_afterOperations (operations : List Operation) :
    (afterOperations operations).Tracks operations := by
  induction operations using List.reverseRecOn with
  | nil => exact .nil
  | append_singleton operations operation ih =>
      rw [afterOperations, List.foldl_append, ← afterOperations]
      cases operation with
      | record root files names => exact ih.record root files names
      | forget root => exact ih.forget root
      | clear => exact .clear operations

/-- What an index tells, from either end, is what was recorded last. -/
structure Exact (index : ReadIndex) (operations : List Operation) : Prop where
  /-- A root reads a file if its record lists the file. -/
  readers : ∀ file root, (index.readersOf file).contains root = true ↔
    ∃ files names, Recorded operations root files names ∧ files.contains file = true
  /-- A file is read if some root reads it. -/
  isRead : ∀ file, index.isRead file = true ↔
    ∃ root, (index.readersOf file).contains root = true
  /-- A root waits for a name if its record lists the name as missing. -/
  waits : ∀ root name, index.waits root name = true ↔
    ∃ files names, Recorded operations root files names ∧ names.contains name = true
  /-- A file is waited for by the roots that wait for a name in which it ends. -/
  waiters : ∀ file root, (index.waitersFor file).contains root = true ↔
    ∃ name, index.waits root name = true ∧ file.endsWith (Path.ofString name) = true
  /-- The files of a record are stored as they were recorded, and no others are. -/
  stored : ∀ root files, index.filesOf? root = some files ↔
    ∃ names, Recorded operations root files names
  /-- Forgetting a root gives back the files of its record, or none if it has no record. -/
  forgotten : ∀ root, (∀ files names, Recorded operations root files names →
      index.filesOf root = files) ∧
    ((∀ files names, ¬Recorded operations root files names) → index.filesOf root = ∅)
  /-- No other empty set is stored. -/
  inhabits : index.Inhabits
  misses : index.Misses

section Tracks

variable {index : ReadIndex} {operations : List Operation}

/-- The files of the record are what is looked up. -/
theorem Tracks.filesOf_eq (h : index.Tracks operations)
    (recorded : Recorded operations root files names) : index.filesOf root = files := by
  have stored : index.filesOf? root = some files := (h.reads root files).2 ⟨names, recorded⟩
  show (index.filesOf? root).getD ∅ = files
  rw [stored]
  rfl

theorem Tracks.filesOf_of_unrecorded (h : index.Tracks operations)
    (unrecorded : ∀ files names, ¬Recorded operations root files names) :
    index.filesOf root = ∅ := by
  show (index.filesOf? root).getD ∅ = ∅
  cases stored : index.filesOf? root with
  | none => rfl
  | some files =>
      obtain ⟨names, recorded⟩ := (h.reads root files).1 stored
      exact absurd recorded (unrecorded files names)

theorem Tracks.contains_filesOf (h : index.Tracks operations) (root file : Path) :
    (index.filesOf root).contains file = true ↔
      ∃ files names, Recorded operations root files names ∧ files.contains file = true := by
  constructor
  · intro member
    by_cases recorded : ∃ files names, Recorded operations root files names
    · obtain ⟨files, names, recorded⟩ := recorded
      rw [h.filesOf_eq recorded] at member
      exact ⟨files, names, recorded, member⟩
    · rw [h.filesOf_of_unrecorded fun files names made => recorded ⟨files, names, made⟩] at member
      exact absurd member PathSet.not_contains_empty
  · rintro ⟨files, names, recorded, member⟩
    rwa [h.filesOf_eq recorded]

end Tracks

/-- **The index is exact after every sequence of operations.** -/
theorem exact_afterOperations (operations : List Operation) :
    (afterOperations operations).Exact operations := by
  have tracks := tracks_afterOperations operations
  have sound := sound_afterOperations operations
  exact {
    readers := fun file root => by rw [sound.inverse, tracks.contains_filesOf]
    isRead := fun file => by
      rw [isRead_iff sound.inverse sound.inhabits]
      exact exists_congr fun root => by rw [sound.inverse]
    waits := fun root name => by rw [sound.names, tracks.misses]
    waiters := fun _ _ => contains_waitersFor
    stored := tracks.reads
    forgotten := fun _ => ⟨fun _ _ => tracks.filesOf_eq, tracks.filesOf_of_unrecorded⟩
    inhabits := sound.inhabits
    misses := sound.misses }

/-- **A root that read nothing** has its empty set of files stored. -/
theorem stores_empty_record :
    ∃ files, (afterOperations [.record (.ofString "/p/top.sv") ∅ ∅]).filesOf?
        (.ofString "/p/top.sv") = some files ∧ files.isEmpty = true := by
  refine ⟨∅, ?_, Std.ExtTreeSet.isEmpty_empty⟩
  show (empty.record (.ofString "/p/top.sv") ∅ ∅).filesOf? (.ofString "/p/top.sv") = some ∅
  rw [filesOf?_record, if_pos BEq.rfl]

end SvServer.Include.ReadIndex
