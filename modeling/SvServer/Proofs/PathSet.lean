import SvServer.Path
import SvServer.Proofs.Row

/-!
# Sets and tables of paths

Membership and look-up after each operation on them. Two spellings of a path are one key, so every
statement is about `==` and never about the spelling that a set or a table happens to hold.
-/

namespace SvServer

namespace Path

/-- The order of paths calls equal what `==` does. -/
@[simp] theorem compare_beq_eq (a b : Path) : (compare a b == .eq) = (a == b) := by
  rw [Bool.eq_iff_iff, beq_iff_eq, compare_eq_iff, beq_iff]

@[simp] theorem compare_bne_eq (a b : Path) : (compare a b != .eq) = !(a == b) := by
  rw [bne, compare_beq_eq]

theorem compare_eq_of_beq {a b : Path} (h : (a == b) = true) : compare a b = .eq :=
  compare_eq_iff.2 (beq_iff.1 h)

/-- The test that tables make on their keys, read as `==`. -/
theorem ite_compare {α : Type} (a b : Path) (x y : α) :
    (if compare a b = .eq then x else y) = if a == b then x else y := by
  by_cases h : (a == b) = true
  · rw [if_pos (compare_eq_of_beq h), if_pos h]
  · rw [if_neg fun same => h (beq_iff.2 (compare_eq_iff.1 same)), if_neg h]

end Path

/-! ## Sets -/

namespace PathSet

theorem contains_insert (set : PathSet) (path other : Path) :
    (set.insert path).contains other = (path == other || set.contains other) := by
  rw [Std.ExtTreeSet.contains_insert, Path.compare_beq_eq]

theorem contains_erase (set : PathSet) (path other : Path) :
    (set.erase path).contains other = (!(path == other) && set.contains other) := by
  rw [Std.ExtTreeSet.contains_erase, Path.compare_bne_eq]

@[simp] theorem contains_join (set other : PathSet) (path : Path) :
    (set.join other).contains path = (set.contains path || other.contains path) := by
  rw [join, contains_extend, Std.ExtTreeSet.contains_toList]

/-- Membership after the sets of some items of a list were joined. -/
theorem contains_foldl_join {α : Type} (items : List α) (takes : α → Bool) (sets : α → PathSet)
    (start : PathSet) (path : Path) :
    (items.foldl (fun set item => if takes item then set.join (sets item) else set)
      start : PathSet).contains path = (start.contains path ||
        items.any fun item => takes item && (sets item).contains path) := by
  induction items generalizing start with
  | nil => simp
  | cons first rest ih =>
      rw [List.foldl_cons, ih, List.any_cons]
      cases takes first <;> simp [Bool.or_assoc]

theorem contains_diff (set other : PathSet) (path : Path) :
    (set \ other).contains path = (set.contains path && !other.contains path) :=
  Std.ExtTreeSet.contains_diff

theorem not_contains_empty {path : Path} : ¬(∅ : PathSet).contains path = true := by
  rw [Std.ExtTreeSet.contains_empty]
  exact Bool.false_ne_true

/-- Membership does not depend on how a path is spelled. -/
theorem contains_congr (set : PathSet) {a b : Path} (h : (a == b) = true) :
    set.contains a = set.contains b :=
  Std.ExtTreeSet.contains_congr (Path.compare_eq_of_beq h)

/-- What a set lists is in it. -/
theorem contains_of_mem_toList {set : PathSet} {path : Path} (h : path ∈ set.toList) :
    set.contains path = true := by
  rw [← Std.ExtTreeSet.contains_toList]
  exact List.contains_iff_exists_mem_beq.2 ⟨path, h, BEq.rfl⟩

/-- What is in a set is listed, perhaps in another spelling. -/
theorem exists_mem_toList {set : PathSet} {path : Path} (h : set.contains path = true) :
    ∃ member ∈ set.toList, (path == member) = true := by
  rw [← Std.ExtTreeSet.contains_toList] at h
  exact List.contains_iff_exists_mem_beq.1 h

/-- Filtering by a property that no spelling changes. -/
theorem contains_filter (set : PathSet) (keep : Path → Bool)
    (congr : ∀ a b : Path, (a == b) = true → keep a = keep b) (path : Path) :
    (set.filter keep).contains path = (set.contains path && keep path) := by
  rw [Bool.eq_iff_iff, Bool.and_eq_true]
  constructor
  · intro member
    obtain ⟨other, listed, same⟩ := exists_mem_toList member
    rw [Std.ExtTreeSet.toList_filter, List.mem_filter] at listed
    rw [contains_congr _ same, congr _ _ same]
    exact ⟨contains_of_mem_toList listed.1, listed.2⟩
  · rintro ⟨member, kept⟩
    obtain ⟨other, listed, same⟩ := exists_mem_toList member
    rw [contains_congr _ same]
    apply contains_of_mem_toList
    rw [Std.ExtTreeSet.toList_filter, List.mem_filter, ← congr _ _ same]
    exact ⟨listed, kept⟩

end PathSet

/-! ## Rows of paths -/

/-- Ordered lists of the same paths are the same, up to spelling. -/
theorem map_components_eq {paths others : List Path}
    (ordered : paths.Pairwise fun a b => compare a b = .lt)
    (ordered' : others.Pairwise fun a b => compare a b = .lt)
    (same : ∀ path : Path, paths.contains path = others.contains path) :
    paths.map Path.components = others.map Path.components := by
  have rows : ∀ {list : List Path}, list.Pairwise (fun a b => compare a b = .lt) →
      (list.map Path.components).Pairwise fun a b => compare a b = .lt :=
    fun ordered => List.pairwise_map.2 ordered
  have nodup : ∀ {list : List Path}, list.Pairwise (fun a b => compare a b = .lt) →
      (list.map Path.components).Nodup := by
    intro list ordered
    refine (rows ordered).imp fun {a b} less equal => ?_
    subst equal
    exact Std.OrientedCmp.not_lt_of_lt less less
  have members : ∀ {list : List Path} {row : List Component},
      row ∈ list.map Path.components ↔ ∃ path : Path, path.components = row ∧
        list.contains path = true := by
    intro list row
    rw [List.mem_map]
    constructor
    · rintro ⟨path, listed, rfl⟩
      exact ⟨path, rfl, List.contains_iff_exists_mem_beq.2 ⟨path, listed, BEq.rfl⟩⟩
    · rintro ⟨path, rfl, member⟩
      obtain ⟨other, listed, same⟩ := List.contains_iff_exists_mem_beq.1 member
      exact ⟨other, listed, (Path.beq_iff.1 same).symm⟩
  refine List.Perm.eq_of_pairwise (fun a b _ _ less more => ?_) (rows ordered) (rows ordered')
    ((List.perm_ext_iff_of_nodup (nodup ordered) (nodup ordered')).2 fun row => ?_)
  · exact absurd more (Std.OrientedCmp.not_lt_of_lt less)
  · rw [members, members]
    simp only [same]

/-- What the paths of a row lead to does not depend on how they are spelled. -/
theorem filterMap_eq_of_components {α : Type} {f : Path → Option α}
    (congr : ∀ a b : Path, (a == b) = true → f a = f b) {paths others : List Path}
    (same : paths.map Path.components = others.map Path.components) :
    paths.filterMap f = others.filterMap f := by
  induction paths generalizing others with
  | nil => rw [List.map_eq_nil_iff.1 same.symm]
  | cons first rest ih =>
      cases others with
      | nil => exact absurd same (List.cons_ne_nil _ _)
      | cons other more =>
          rw [List.map_cons, List.map_cons, List.cons.injEq] at same
          rw [List.filterMap_cons, List.filterMap_cons, ih same.2,
            congr first other (Path.beq_iff.2 same.1)]

/-! ## Tables -/

namespace PathMap

variable {β : Type}

theorem getElem?_erase (table : PathMap β) (path other : Path) :
    (table.erase path)[other]? = if path == other then none else table[other]? := by
  rw [Std.ExtTreeMap.getElem?_erase, Path.ite_compare]

theorem getElem?_insert (table : PathMap β) (path other : Path) (value : β) :
    (table.insert path value)[other]? = if path == other then some value else table[other]? := by
  rw [Std.ExtTreeMap.getElem?_insert, Path.ite_compare]

/-- Look-up does not depend on how a path is spelled. -/
theorem getElem?_congr (table : PathMap β) {a b : Path} (h : (a == b) = true) :
    table[a]? = table[b]? :=
  Std.ExtTreeMap.getElem?_congr (Path.compare_eq_of_beq h)

/-- The key under which a table holds a path is that path. -/
theorem getKeyD_beq (table : PathMap β) (path : Path) :
    (table.getKeyD path path == path) = true := by
  by_cases h : path ∈ table
  · have hget : table.getKey? path = some (table.getKeyD path path) :=
      Std.ExtTreeMap.getKey?_eq_some_getKeyD h
    have hcmp := Std.ExtTreeMap.compare_getKey?_self (t := table) (k := path)
    rw [hget] at hcmp
    exact Path.beq_iff.2 (Path.compare_eq_iff.1 (by simpa using hcmp))
  · rw [Std.ExtTreeMap.getKeyD_eq_fallback h]
    exact BEq.rfl

@[simp] theorem getElem?_put (table : PathMap β) (path other : Path) (value : β) :
    (table.put path value)[other]? = if path == other then some value else table[other]? := by
  have key := getKeyD_beq table path
  rw [put, getElem?_insert, BEq.congr_left key]

open Std.DTreeMap.Internal in
/-- The values of a table are those of its entries, in their order. -/
theorem values_eq_map_toList (table : PathMap β) : table.values = table.toList.map Prod.snd := by
  obtain ⟨⟨tree⟩⟩ := table
  induction tree using Quotient.inductionOn with
  | h tree =>
      show Impl.values tree.inner = (Impl.Const.toList tree.inner).map Prod.snd
      rw [Impl.values_eq_map_snd, Impl.Const.toList_eq_toListModel_map, List.map_map]
      rfl

/-- What a table lists is stored in it. -/
theorem getElem?_of_mem_toList {table : PathMap β} {entry : Path × β}
    (listed : entry ∈ table.toList) : table[entry.1]? = some entry.2 :=
  (Std.ExtTreeMap.mem_toList_iff_getKey?_eq_some_and_getElem?_eq_some.1 listed).2

/-- What is stored for a path is listed, perhaps under another spelling. -/
theorem exists_mem_toList {table : PathMap β} {path : Path} {value : β}
    (stored : table[path]? = some value) :
    ∃ key, (path == key) = true ∧ (key, value) ∈ table.toList := by
  obtain ⟨key, same, listed⟩ :=
    Std.ExtTreeMap.getElem?_eq_some_iff_exists_compare_eq_eq_and_mem_toList.1 stored
  exact ⟨key, Path.beq_iff.2 (Path.compare_eq_iff.1 same), listed⟩

/-- What is stored for a path is among the values. -/
theorem mem_values_of_getElem? {table : PathMap β} {path : Path} {value : β}
    (stored : table[path]? = some value) : value ∈ table.values := by
  obtain ⟨key, -, listed⟩ := exists_mem_toList stored
  rw [values_eq_map_toList]
  exact List.mem_map_of_mem listed

/-- Look-up in a table whose values were all replaced. -/
theorem getElem?_mapValues {γ : Type} (table : PathMap β) (f : β → γ) (path : Path) :
    (table.map fun _ value => f value)[path]? = table[path]?.map f := by
  ext value
  rw [Option.map_eq_some_iff]
  constructor
  · intro found
    obtain ⟨key, same, listed⟩ := exists_mem_toList found
    rw [Std.ExtTreeMap.toList_map] at listed
    obtain ⟨⟨other, stored⟩, member, changed⟩ := List.mem_map.1 listed
    obtain ⟨rfl, rfl⟩ := Prod.mk.inj changed
    exact ⟨stored, by rw [getElem?_congr table same, getElem?_of_mem_toList member], rfl⟩
  · rintro ⟨stored, found, rfl⟩
    obtain ⟨key, same, listed⟩ := exists_mem_toList found
    have replaced : (key, f stored) ∈ (table.map fun _ value => f value).toList := by
      rw [Std.ExtTreeMap.toList_map]
      exact List.mem_map.2 ⟨(key, stored), listed, rfl⟩
    rw [getElem?_congr _ same]
    exact getElem?_of_mem_toList replaced

end PathMap

/-! ## What tables store -/

section Stores

variable {α β : Type} {cmp : α → α → Ordering} [Std.TransCmp cmp]

/-- All values that a table stores have a property. -/
def Stores (good : β → Prop) (table : Std.ExtTreeMap α β cmp) : Prop :=
  ∀ (key : α) (value : β), table[key]? = some value → good value

variable {good : β → Prop} {table : Std.ExtTreeMap α β cmp}

theorem Stores.empty : Stores good (∅ : Std.ExtTreeMap α β cmp) := by
  intro key value stored
  rw [Std.ExtTreeMap.getElem?_empty] at stored
  exact absurd stored nofun

theorem Stores.insert (h : Stores good table) (key : α) {value : β} (fine : good value) :
    Stores good (table.insert key value) := by
  intro other found stored
  rw [Std.ExtTreeMap.getElem?_insert] at stored
  split at stored
  · rwa [← Option.some.inj stored]
  · exact h other found stored

theorem Stores.erase (h : Stores good table) (key : α) : Stores good (table.erase key) := by
  intro other found stored
  rw [Std.ExtTreeMap.getElem?_erase] at stored
  split at stored
  · exact absurd stored nofun
  · exact h other found stored

theorem Stores.foldl_alter {f : Option β → Option β}
    (keeps : ∀ entry, (∀ value, entry = some value → good value) →
      ∀ value, f entry = some value → good value)
    (keys : List α) (h : Stores good table) :
    Stores good (keys.foldl (fun table key => table.alter key f) table) := by
  induction keys generalizing table with
  | nil => exact h
  | cons first rest ih =>
      rw [List.foldl_cons]
      apply ih
      intro key value stored
      rw [Std.ExtTreeMap.getElem?_alter] at stored
      split at stored
      · exact keeps _ (fun value stored => h first value stored) value stored
      · exact h key value stored

theorem Stores.put {table : PathMap β} (h : Stores good table) (path : Path) {value : β}
    (fine : good value) : Stores good (table.put path value) := h.insert _ fine

end Stores

end SvServer
