import SvServer.Include.ReadIndex
import SvServer.Proofs.PlainPath

/-!
# The read index leads both ways

The table from files to the roots that read them is the inverse of the table from roots to the
files they read, and the table from missing names to the roots that wait for them is the inverse of
the table from roots to the names that they miss. Both operations on the index keep it so. A file
that neither the old nor the new reading of a root contains keeps its readers exactly. A set of roots
is stored only if it has a root.
-/

namespace SvServer.Include.ReadIndex

/-- Whether a stored set of roots holds a root; a set that is not stored is empty. -/
def holds (sets : Option PathSet) (root : Path) : Bool := (sets.getD ∅).contains root

theorem holds_dropRoot (sets : Option PathSet) (root other : Path) :
    holds (dropRoot sets root) other = (holds sets other && !(root == other)) := by
  cases sets with
  | none => simp [holds, dropRoot]
  | some roots =>
      -- A set from which the last root was erased is not stored any more.
      by_cases h : (roots.erase root).isEmpty = true
      · have none_left := Std.ExtTreeSet.eq_empty_iff_forall_contains.1
          (Std.ExtTreeSet.isEmpty_iff.1 h) other
        rw [PathSet.contains_erase] at none_left
        simpa [holds, dropRoot, h, Bool.and_comm] using none_left.symm
      · simp [holds, dropRoot, h, Bool.and_comm]

theorem holds_addRoot (sets : Option PathSet) (root other : Path) :
    holds (addRoot sets root) other = (root == other || holds sets other) := by
  simp [holds, addRoot]

/-! ## Changing the entries of many keys -/

section Alter

variable {α : Type} [BEq α] [EquivBEq α] {cmp : α → α → Ordering} [Std.TransCmp cmp]
variable [Std.LawfulBEqCmp cmp]

/-- Entries of keys that are not listed stay as they are. -/
theorem getElem?_foldl_alter_of_not_mem (keys : List α) (f : Option PathSet → Option PathSet)
    (table : Std.ExtTreeMap α PathSet cmp) {key : α} (h : keys.contains key = false) :
    (keys.foldl (fun table key => table.alter key f) table)[key]? = table[key]? := by
  induction keys generalizing table with
  | nil => rfl
  | cons first rest ih =>
      rw [List.contains_cons, Bool.or_eq_false_iff] at h
      rw [List.foldl_cons, ih _ h.2, Std.ExtTreeMap.getElem?_alter, if_neg]
      rw [Std.LawfulBEqCmp.compare_eq_iff_beq, BEq.comm, h.1]
      exact Bool.false_ne_true

/-- The entries of listed keys change as one step changes them, if a second step changes nothing
more: a key may be listed in several spellings. -/
theorem holds_foldl_alter {f : Option PathSet → Option PathSet} {root : Path}
    (change : Bool → Bool) (changes : ∀ sets, holds (f sets) root = change (holds sets root))
    (settles : ∀ held, change (change held) = change held) (keys : List α) (key : α)
    (table : Std.ExtTreeMap α PathSet cmp) :
    holds (keys.foldl (fun table key => table.alter key f) table)[key]? root =
      if keys.contains key then change (holds table[key]? root)
      else holds table[key]? root := by
  induction keys generalizing table with
  | nil => rfl
  | cons first rest ih =>
      rw [List.foldl_cons, ih, Std.ExtTreeMap.getElem?_alter, List.contains_cons,
        BEq.comm (a := key)]
      by_cases here : (first == key) = true
      · have same : cmp first key = .eq := Std.LawfulBEqCmp.compare_eq_iff_beq.2 here
        rw [if_pos same, changes, Std.ExtTreeMap.getElem?_congr same, settles, here, ite_self]
        rfl
      · rw [if_neg (mt Std.LawfulBEqCmp.compare_eq_iff_beq.1 here), Bool.eq_false_iff.2 here,
          Bool.false_or]

theorem holds_foldl_dropRoot (keys : List α) (root other : Path) (key : α)
    (table : Std.ExtTreeMap α PathSet cmp) :
    holds (keys.foldl (fun table key => table.alter key (dropRoot · root)) table)[key]? other =
      (holds table[key]? other && !(keys.contains key && root == other)) := by
  rw [holds_foldl_alter (· && !(root == other)) (fun sets => holds_dropRoot sets root other)
    (by simp)]
  cases keys.contains key <;> simp

theorem holds_foldl_addRoot (keys : List α) (root other : Path) (key : α)
    (table : Std.ExtTreeMap α PathSet cmp) :
    holds (keys.foldl (fun table key => table.alter key (addRoot · root)) table)[key]? other =
      (holds table[key]? other || (keys.contains key && root == other)) := by
  rw [holds_foldl_alter (root == other || ·) (fun sets => holds_addRoot sets root other)
    (by simp)]
  cases keys.contains key <;> simp [Bool.or_comm]

end Alter

/-! ## What a root read -/

theorem filesOf_congr (index : ReadIndex) {a b : Path} (h : (a == b) = true) :
    index.filesOf a = index.filesOf b := by
  rw [filesOf, filesOf, PathMap.getElem?_congr index.reads h]

theorem filesOf?_forget (index : ReadIndex) (root other : Path) :
    (index.forget root).filesOf? other = if root == other then none else index.filesOf? other :=
  PathMap.getElem?_erase ..

theorem filesOf?_record (index : ReadIndex) (root other : Path) (files : PathSet)
    (names : TextSet) :
    (index.record root files names).filesOf? other =
      if root == other then some files else index.filesOf? other := by
  simp only [filesOf?, record, PathMap.getElem?_insert, forget, PathMap.getElem?_erase]
  split <;> rfl

theorem filesOf_forget (index : ReadIndex) (root other : Path) :
    (index.forget root).filesOf other = if root == other then ∅ else index.filesOf other := by
  simp only [filesOf, forget, PathMap.getElem?_erase]
  split <;> rfl

theorem filesOf_record (index : ReadIndex) (root other : Path) (files : PathSet)
    (names : TextSet) :
    (index.record root files names).filesOf other =
      if root == other then files else index.filesOf other := by
  simp only [filesOf, record, PathMap.getElem?_insert, forget, PathMap.getElem?_erase]
  split <;> rfl

/-! ## Who reads a file -/

theorem readersOf_congr (index : ReadIndex) {a b : Path} (h : (a == b) = true) :
    index.readersOf a = index.readersOf b := by
  rw [readersOf, readersOf, PathMap.getElem?_congr index.readers h]

theorem contains_readersOf (index : ReadIndex) (path root : Path) :
    (index.readersOf path).contains root = holds index.readers[path]? root := rfl

theorem contains_readersOf_forget (index : ReadIndex) (root path other : Path) :
    ((index.forget root).readersOf path).contains other =
      ((index.readersOf path).contains other &&
        !((index.filesOf root).contains path && root == other)) := by
  simp only [contains_readersOf, forget, holds_foldl_dropRoot, Std.ExtTreeSet.contains_toList,
    filesOf]

theorem contains_readersOf_record (index : ReadIndex) (root path other : Path) (files : PathSet)
    (names : TextSet) :
    ((index.record root files names).readersOf path).contains other =
      (((index.forget root).readersOf path).contains other ||
        (files.contains path && root == other)) := by
  simp only [contains_readersOf, record, holds_foldl_addRoot, Std.ExtTreeSet.contains_toList]

/-- **Forgetting a root leaves the readers of other files alone.** -/
theorem readersOf_forget_of_not_read (index : ReadIndex) {root path : Path}
    (h : (index.filesOf root).contains path = false) :
    (index.forget root).readersOf path = index.readersOf path := by
  have unlisted : (index.filesOf root).toList.contains path = false := by
    rw [Std.ExtTreeSet.contains_toList, h]
  exact congrArg (·.getD ∅) (getElem?_foldl_alter_of_not_mem _ _ index.readers unlisted)

/-- **Recording a root leaves the readers of other files alone.** -/
theorem readersOf_record_of_not_read (index : ReadIndex) {root path : Path} {files : PathSet}
    {names : TextSet} (before : (index.filesOf root).contains path = false)
    (now : files.contains path = false) :
    (index.record root files names).readersOf path = index.readersOf path := by
  have unlisted : files.toList.contains path = false := by
    rw [Std.ExtTreeSet.contains_toList, now]
  rw [← readersOf_forget_of_not_read index before]
  exact congrArg (·.getD ∅)
    (getElem?_foldl_alter_of_not_mem _ _ (index.forget root).readers unlisted)

/-! ## The two tables agree -/

/-- A file has a root among its readers exactly when the root read it. -/
def Inverse (index : ReadIndex) : Prop :=
  ∀ path root, (index.readersOf path).contains root = (index.filesOf root).contains path

theorem Inverse.empty : Inverse empty := by
  intro path root
  simp [readersOf, filesOf, ReadIndex.empty]

/-- **Forgetting a root keeps the two tables inverse.** -/
theorem Inverse.forget {index : ReadIndex} (h : index.Inverse) (root : Path) :
    (index.forget root).Inverse := by
  intro path other
  rw [contains_readersOf_forget, filesOf_forget, h path other]
  by_cases same : (root == other) = true
  · rw [filesOf_congr index same, if_pos same]
    simp [same]
  · rw [if_neg same]
    simp [same]

/-- **Recording a root keeps the two tables inverse.** -/
theorem Inverse.record {index : ReadIndex} (h : index.Inverse) (root : Path) (files : PathSet)
    (names : TextSet) : (index.record root files names).Inverse := by
  intro path other
  rw [contains_readersOf_record, (h.forget root) path other, filesOf_forget, filesOf_record]
  by_cases same : (root == other) = true <;> simp [same]

/-! ## What a root misses -/

/-- Include names that a root misses; none for a root that is not stored as missing any. -/
def namesOf (index : ReadIndex) (root : Path) : TextSet := (index.missing[root]?).getD ∅

theorem namesOf_congr (index : ReadIndex) {a b : Path} (h : (a == b) = true) :
    index.namesOf a = index.namesOf b := by
  rw [namesOf, namesOf, PathMap.getElem?_congr index.missing h]

theorem missing_forget (index : ReadIndex) (root other : Path) :
    (index.forget root).missing[other]? =
      if root == other then none else index.missing[other]? :=
  PathMap.getElem?_erase ..

/-- A root that misses nothing is not stored as missing any name. -/
theorem missing_record (index : ReadIndex) (root other : Path) (files : PathSet)
    (names : TextSet) :
    (index.record root files names).missing[other]? =
      if root == other then (if names.isEmpty then none else some names)
      else index.missing[other]? := by
  rw [record]
  by_cases nothing : names.isEmpty = true
  · simp only [nothing, if_true, missing_forget]
  · simp only [nothing, Bool.false_eq_true, if_false, PathMap.getElem?_insert, missing_forget]
    split <;> rfl

theorem namesOf_forget (index : ReadIndex) (root other : Path) :
    (index.forget root).namesOf other = if root == other then ∅ else index.namesOf other := by
  rw [namesOf, missing_forget, namesOf]
  split <;> rfl

theorem namesOf_record (index : ReadIndex) (root other : Path) (files : PathSet)
    (names : TextSet) :
    (index.record root files names).namesOf other =
      if root == other then names else index.namesOf other := by
  rw [namesOf, missing_record, namesOf]
  by_cases nothing : names.isEmpty = true
  · rw [if_pos nothing, Std.ExtTreeSet.isEmpty_iff.1 nothing]
    split <;> rfl
  · rw [if_neg nothing]
    split <;> rfl

/-! ## Who waits for a name -/

/-- Whether a root waits for an include name. -/
def waits (index : ReadIndex) (root : Path) (name : String) : Bool :=
  holds index.waiting[name]? root

theorem waits_forget (index : ReadIndex) (root other : Path) (name : String) :
    (index.forget root).waits other name = (index.waits other name &&
      !((index.namesOf root).contains name && root == other)) := by
  simp only [waits, forget, holds_foldl_dropRoot, Std.ExtTreeSet.contains_toList, namesOf]

/-- A root that is recorded waits for the names that it misses; what others wait for stays. -/
theorem waits_record (index : ReadIndex) (root other : Path) (files : PathSet) (names : TextSet)
    (name : String) : (index.record root files names).waits other name =
      ((index.forget root).waits other name || (names.contains name && root == other)) := by
  simp only [waits, record, holds_foldl_addRoot, Std.ExtTreeSet.contains_toList]

/-- A root waits for a name exactly when it misses the name. -/
def NamesInverse (index : ReadIndex) : Prop :=
  ∀ root name, index.waits root name = (index.namesOf root).contains name

theorem NamesInverse.empty : NamesInverse empty := by
  intro root name
  simp [waits, holds, namesOf, ReadIndex.empty]

/-- **Forgetting a root keeps names and those that wait for them inverse.** -/
theorem NamesInverse.forget {index : ReadIndex} (h : index.NamesInverse) (root : Path) :
    (index.forget root).NamesInverse := by
  intro other name
  rw [waits_forget, namesOf_forget, h other name]
  by_cases same : (root == other) = true
  · rw [namesOf_congr index same, if_pos same]
    simp [same]
  · rw [if_neg same]
    simp [same]

/-- **Recording a root keeps names and those that wait for them inverse.** -/
theorem NamesInverse.record {index : ReadIndex} (h : index.NamesInverse) (root : Path)
    (files : PathSet) (names : TextSet) : (index.record root files names).NamesInverse := by
  intro other name
  rw [waits_record, (h.forget root) other name, namesOf_forget, namesOf_record]
  by_cases same : (root == other) = true <;> simp [same]

/-- **The roots that a file could satisfy** are those that wait for a name in which the file
ends. -/
theorem contains_waitersFor {index : ReadIndex} {path root : Path} :
    (index.waitersFor path).contains root = true ↔
      ∃ name, index.waits root name = true ∧ path.endsWith (Path.ofString name) = true := by
  rw [waitersFor, PathSet.contains_foldl_join _ (fun entry => path.endsWith (Path.ofString entry.1))
    Prod.snd, Std.ExtTreeSet.contains_empty, Bool.false_or, List.any_eq_true]
  constructor
  · rintro ⟨⟨name, roots⟩, member, found⟩
    rw [Bool.and_eq_true] at found
    refine ⟨name, ?_, found.1⟩
    rw [waits, Std.ExtTreeMap.mem_toList_iff_getElem?_eq_some.1 member]
    exact found.2
  · rintro ⟨name, waiting, ends⟩
    rw [waits] at waiting
    cases stored : index.waiting[name]? with
    | none =>
        rw [stored, holds, Option.getD_none, Std.ExtTreeSet.contains_empty] at waiting
        exact absurd waiting Bool.false_ne_true
    | some roots =>
        rw [stored] at waiting
        refine ⟨(name, roots), Std.ExtTreeMap.mem_toList_iff_getElem?_eq_some.2 stored, ?_⟩
        rw [Bool.and_eq_true]
        exact ⟨ends, waiting⟩

/-! ## Sets of roots that are stored -/

/-- A set from which a root was dropped has a property that erasing keeps. -/
theorem good_dropRoot {good : PathSet → Prop} {sets : Option PathSet} {root : Path}
    (erased : ∀ roots, sets = some roots → (roots.erase root).isEmpty = false →
      good (roots.erase root)) :
    ∀ roots, dropRoot sets root = some roots → good roots := by
  intro roots stored
  cases sets with
  | none => exact absurd stored nofun
  | some old =>
      rw [dropRoot] at stored
      split at stored
      · exact absurd stored nofun
      · rename_i left
        rw [← Option.some.inj stored]
        exact erased old rfl ((Bool.not_eq_true _).mp left)

/-- A set to which a root was added has it, so it is not empty. -/
theorem isEmpty_addRoot {sets : Option PathSet} {root : Path} :
    ∀ roots, addRoot sets root = some roots → roots.isEmpty = false := by
  intro roots stored
  rw [← Option.some.inj stored, Bool.eq_false_iff, ne_eq, Std.ExtTreeSet.isEmpty_iff]
  exact Std.ExtTreeSet.insert_ne_empty

theorem plain_dropRoot {sets : Option PathSet} {root : Path}
    (h : ∀ roots, sets = some roots → roots.Plain) :
    ∀ roots, dropRoot sets root = some roots → roots.Plain :=
  good_dropRoot fun roots stored _ => (h roots stored).erase root

theorem plain_addRoot {sets : Option PathSet} {root : Path} (plain : root.IsPlain)
    (h : ∀ roots, sets = some roots → roots.Plain) :
    ∀ roots, addRoot sets root = some roots → roots.Plain := by
  intro roots stored
  rw [← Option.some.inj stored]
  cases sets with
  | none => exact PathSet.Plain.insert .empty plain
  | some old => exact (h old rfl).insert plain

/-- The sets of roots that the index stores have a root each. -/
structure Inhabits (index : ReadIndex) : Prop where
  readers : Stores (fun roots => roots.isEmpty = false) index.readers
  waiting : Stores (fun roots => roots.isEmpty = false) index.waiting

theorem Inhabits.empty : Inhabits empty := ⟨.empty, .empty⟩

theorem Inhabits.forget {index : ReadIndex} (h : index.Inhabits) (root : Path) :
    (index.forget root).Inhabits :=
  ⟨h.readers.foldl_alter (fun _ _ => good_dropRoot fun _ _ left => left) _,
    h.waiting.foldl_alter (fun _ _ => good_dropRoot fun _ _ left => left) _⟩

theorem Inhabits.record {index : ReadIndex} (h : index.Inhabits) (root : Path)
    (files : PathSet) (names : TextSet) : (index.record root files names).Inhabits :=
  ⟨(h.forget root).readers.foldl_alter (fun _ _ => isEmpty_addRoot) _,
    (h.forget root).waiting.foldl_alter (fun _ _ => isEmpty_addRoot) _⟩

/-- A set with a root in it is stored, and no other is: some root holds there. -/
theorem exists_holds_of_stored {sets : Option PathSet}
    (inhabited : ∀ roots, sets = some roots → roots.isEmpty = false) :
    sets.isSome = true ↔ ∃ root, holds sets root = true := by
  cases sets with
  | none => simp [holds]
  | some roots =>
      rw [Option.isSome_some, eq_self, true_iff]
      have some_left : roots ≠ ∅ := by
        rw [ne_eq, ← Std.ExtTreeSet.isEmpty_iff, inhabited roots rfl]
        exact Bool.false_ne_true
      refine Classical.byContradiction fun nobody => some_left ?_
      refine Std.ExtTreeSet.eq_empty_iff_forall_contains.2 fun root => ?_
      exact Bool.eq_false_iff.2 fun member => nobody ⟨root, member⟩

/-- **A file is stored as read exactly if some root read it.** -/
theorem isRead_iff {index : ReadIndex} (inverse : index.Inverse) (inhabited : index.Inhabits)
    (path : Path) :
    index.isRead path = true ↔ ∃ root, (index.filesOf root).contains path = true := by
  rw [isRead, ← Std.ExtTreeMap.isSome_getElem?_eq_contains,
    exists_holds_of_stored (inhabited.readers path)]
  exact exists_congr fun root => by rw [← contains_readersOf, inverse]

/-- All roots that the index leads to are plain. -/
structure PlainRoots (index : ReadIndex) : Prop where
  readers : Stores PathSet.Plain index.readers
  waiting : Stores PathSet.Plain index.waiting

theorem PlainRoots.empty : PlainRoots empty := ⟨.empty, .empty⟩

theorem PlainRoots.forget {index : ReadIndex} (h : index.PlainRoots) (root : Path) :
    (index.forget root).PlainRoots :=
  ⟨h.readers.foldl_alter (fun _ => plain_dropRoot) _,
    h.waiting.foldl_alter (fun _ => plain_dropRoot) _⟩

theorem PlainRoots.record {index : ReadIndex} (h : index.PlainRoots) {root : Path}
    (plain : root.IsPlain) (files : PathSet) (names : TextSet) :
    (index.record root files names).PlainRoots :=
  ⟨(h.forget root).readers.foldl_alter (fun _ => plain_addRoot plain) _,
    (h.forget root).waiting.foldl_alter (fun _ => plain_addRoot plain) _⟩

theorem PlainRoots.readersOf {index : ReadIndex} (h : index.PlainRoots) (path : Path) :
    (index.readersOf path).Plain := by
  rw [ReadIndex.readersOf]
  cases stored : index.readers[path]? with
  | none => exact .empty
  | some roots => exact h.readers path roots stored

theorem PlainRoots.waitersFor {index : ReadIndex} (h : index.PlainRoots) (path : Path) :
    (index.waitersFor path).Plain := by
  have listed : ∀ entry ∈ index.waiting.toList, entry.2.Plain := by
    rintro ⟨name, roots⟩ member
    exact h.waiting name roots (Std.ExtTreeMap.mem_toList_iff_getElem?_eq_some.1 member)
  rw [ReadIndex.waitersFor]
  refine List.foldlRecOn (motive := fun roots : PathSet => roots.Plain) _ _ .empty ?_
  intro roots plain entry member
  dsimp only
  split
  · exact plain.join (listed entry member)
  · exact plain

end SvServer.Include.ReadIndex
