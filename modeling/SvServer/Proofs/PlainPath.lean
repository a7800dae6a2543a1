import SvServer.Path.Normal
import SvServer.Proofs.PathSet

/-!
# Paths in plain spelling

A path is plain when one separator stands between two components and nothing else is written. Among
plain paths the same components mean the same text, so sets of plain paths that have the same
members are equal, and a plain path that a set holds is listed as it is written.

Normal forms are plain.
-/

namespace SvServer

/-! ## Components of a spelling -/

namespace Component

/-- A component that may stand behind another one. -/
def IsInner : Component → Prop
  | root => False
  | here => False
  | up => True
  | named name => name ≠ "" ∧ name ≠ "." ∧ name ≠ ".."

theorem isInner_of_ofSegment? {segment : String} {component : Component}
    (h : ofSegment? segment = some component) : component.IsInner := by
  rw [ofSegment?] at h
  split at h
  · exact absurd h nofun
  · rename_i ordinary
    rw [not_or] at ordinary
    split at h
    · rw [← Option.some.inj h]
      trivial
    · rename_i down
      rw [← Option.some.inj h]
      exact ⟨ordinary.1, ordinary.2, down⟩

/-- The text of an inner component reads as that component. -/
theorem ofSegment?_text {component : Component} (h : component.IsInner) :
    ofSegment? component.text = some component := by
  cases component with
  | root => exact absurd h id
  | here => exact absurd h id
  | up => rfl
  | named name =>
      obtain ⟨empty, dot, dots⟩ := h
      rw [text, ofSegment?, if_neg (not_or.2 ⟨empty, dot⟩), if_neg dots]

theorem filterMap_ofSegment?_text {components : List Component}
    (h : ∀ c ∈ components, c.IsInner) :
    (components.map text).filterMap ofSegment? = components := by
  induction components with
  | nil => rfl
  | cons first rest ih =>
      rw [List.map_cons, List.filterMap_cons_some (ofSegment?_text (h first List.mem_cons_self)),
        ih fun c member => h c (List.mem_cons_of_mem _ member)]

theorem isInner_of_mem_filterMap {segments : List String} {component : Component}
    (h : component ∈ segments.filterMap ofSegment?) : component.IsInner := by
  obtain ⟨segment, -, read⟩ := List.mem_filterMap.1 h
  exact isInner_of_ofSegment? read

end Component

namespace Path

/-- A row of components as normal forms have it: the root directory stands in front or not at all,
and all else is inner. -/
def IsNormalRow : List Component → Prop
  | [] => True
  | first :: rest => (first = .root ∨ first.IsInner) ∧ ∀ c ∈ rest, c.IsInner

/-- Components written out plainly are read back as they were. -/
theorem components_ofComponents {row : List Component} (h : IsNormalRow row) :
    (ofComponents row).components = row := by
  cases row with
  | nil => rfl
  | cons first rest =>
      obtain ⟨head, inner⟩ := h
      rcases head with rfl | head
      · cases rest with
        | nil => rfl
        | cons second more =>
            show Component.root :: (List.map Component.text (second :: more)).filterMap _ = _
            rw [Component.filterMap_ofSegment?_text inner]
      · have all : ∀ c ∈ first :: rest, c.IsInner := by
          intro c member
          rcases List.mem_cons.1 member with rfl | member
          · exact head
          · exact inner c member
        have read := Component.filterMap_ofSegment?_text all
        cases first with
        | root => exact absurd head id
        | here => exact absurd head id
        | up => exact read
        | named name =>
            obtain ⟨empty, dot, -⟩ := head
            rw [List.map_cons] at read
            show components ⟨name :: rest.map Component.text⟩ = _
            rw [components]
            split
            · rename_i same
              exact absurd (List.cons.inj same).1 empty
            · rename_i same
              exact absurd (List.cons.inj same).1 dot
            · exact read

/-- All components of a path but the first are inner. -/
theorem isInner_of_mem_tail (path : Path) :
    ∀ c ∈ path.components.tail, c.IsInner := by
  intro c member
  rw [components] at member
  split at member
  · exact Component.isInner_of_mem_filterMap member
  · exact Component.isInner_of_mem_filterMap member
  · exact Component.isInner_of_mem_filterMap (List.mem_of_mem_tail member)

/-- What is kept while a path is normalised: inner components, and beneath them the root directory
if the path is absolute. -/
def IsKept (absolute : Bool) (kept : List Component) : Prop :=
  ∃ inner : List Component, (∀ c ∈ inner, c.IsInner) ∧
    kept = inner ++ if absolute then [.root] else []

theorem isKept_normalizeStep {absolute : Bool} {kept : List Component} {component : Component}
    (h : IsKept absolute kept) (inner : component.IsInner) :
    IsKept absolute (normalizeStep kept component) := by
  obtain ⟨above, allInner, rfl⟩ := h
  have push : IsKept absolute (component :: (above ++ if absolute then [.root] else [])) := by
    refine ⟨component :: above, ?_, rfl⟩
    intro c member
    rcases List.mem_cons.1 member with rfl | member
    · exact inner
    · exact allInner c member
  cases component with
  | root => exact absurd inner id
  | here => exact absurd inner id
  | named name => exact push
  | up =>
      -- Going up takes the innermost component away, unless there is none to take.
      cases above with
      | nil => cases absolute <;> exact push
      | cons top below =>
          have tail : IsKept absolute (below ++ if absolute then [.root] else []) :=
            ⟨below, fun c member => allInner c (List.mem_cons_of_mem _ member), rfl⟩
          cases top with
          | root => exact absurd (allInner _ List.mem_cons_self) id
          | here => exact absurd (allInner _ List.mem_cons_self) id
          | up => exact push
          | named name => exact tail

theorem isKept_foldl {absolute : Bool} {components kept : List Component}
    (h : IsKept absolute kept) (inner : ∀ c ∈ components, c.IsInner) :
    IsKept absolute (components.foldl normalizeStep kept) := by
  induction components generalizing kept with
  | nil => exact h
  | cons first rest ih =>
      rw [List.foldl_cons]
      exact ih (isKept_normalizeStep h (inner first List.mem_cons_self))
        fun c member => inner c (List.mem_cons_of_mem _ member)

/-- What is kept of a whole path. -/
theorem isKept_components (path : Path) :
    IsKept path.isAbsolute (path.components.foldl normalizeStep []) := by
  have tailInner := isInner_of_mem_tail path
  have first : path.components.head? = none ∨ path.components.head? = some .root ∨
      path.components.head? = some .here ∨ ∃ c, path.components.head? = some c ∧ c.IsInner := by
    rw [components]
    split
    · exact .inr (.inl rfl)
    · exact .inr (.inr (.inl rfl))
    · cases row : path.segments.filterMap Component.ofSegment? with
      | nil => exact .inl rfl
      | cons c rest =>
          have listed : c ∈ path.segments.filterMap Component.ofSegment? := by
            rw [row]
            exact List.mem_cons_self
          exact .inr (.inr (.inr ⟨c, rfl, Component.isInner_of_mem_filterMap listed⟩))
  rw [isAbsolute]
  generalize path.components = row at tailInner first
  cases row with
  | nil => exact ⟨[], nofun, rfl⟩
  | cons c rest =>
      rw [List.foldl_cons]
      simp only [List.head?_cons, Option.some.injEq, reduceCtorEq, false_or] at first
      rcases first with rfl | rfl | ⟨_, rfl, inner⟩
      · exact isKept_foldl ⟨[], nofun, rfl⟩ tailInner
      · exact isKept_foldl ⟨[], nofun, rfl⟩ tailInner
      · have relative : ((c :: rest).head? == some Component.root) = false := by
          rw [beq_eq_false_iff_ne]
          rintro same
          rw [Option.some.inj same] at inner
          exact inner
        rw [relative]
        exact isKept_foldl (isKept_normalizeStep ⟨[], nofun, rfl⟩ inner) tailInner

theorem IsKept.isNormalRow_reverse {absolute : Bool} {kept : List Component}
    (h : IsKept absolute kept) : IsNormalRow kept.reverse := by
  obtain ⟨inner, allInner, rfl⟩ := h
  have reversed : ∀ c ∈ inner.reverse, c.IsInner :=
    fun c member => allInner c (List.mem_reverse.1 member)
  cases absolute with
  | true =>
      rw [if_pos rfl, List.reverse_append]
      exact ⟨.inl rfl, reversed⟩
  | false =>
      rw [if_neg Bool.false_ne_true, List.append_nil]
      cases row : inner.reverse with
      | nil => trivial
      | cons first rest =>
          rw [row] at reversed
          exact ⟨.inr (reversed first List.mem_cons_self),
            fun c member => reversed c (List.mem_cons_of_mem _ member)⟩

theorem components_normalize (path : Path) :
    path.normalize.components = (path.components.foldl normalizeStep []).reverse :=
  components_ofComponents (isKept_components path).isNormalRow_reverse

/-- Normalising keeps absolute paths absolute and relative paths relative. -/
theorem isAbsolute_normalize (path : Path) : path.normalize.isAbsolute = path.isAbsolute := by
  obtain ⟨inner, allInner, kept⟩ := isKept_components path
  rw [isAbsolute, components_normalize, kept]
  cases path.isAbsolute with
  | true =>
      rw [if_pos rfl, List.reverse_append]
      rfl
  | false =>
      rw [if_neg Bool.false_ne_true, List.append_nil, beq_eq_false_iff_ne, List.head?_reverse]
      intro last
      exact allInner _ (List.mem_of_getLast? last)

/-! ## Paths without dots -/

/-- No step of the row is `.` or `..`. -/
def IsDirect (row : List Component) : Prop := ∀ c ∈ row, c ≠ .here ∧ c ≠ .up

instance (row : List Component) : Decidable (IsDirect row) :=
  inferInstanceAs (Decidable (∀ c ∈ row, _))

/-- Normalising goes through direct steps one by one. -/
theorem foldl_normalizeStep_of_isDirect {row : List Component} (direct : IsDirect row)
    (kept : List Component) : row.foldl normalizeStep kept = row.reverse ++ kept := by
  induction row generalizing kept with
  | nil => rfl
  | cons first rest ih =>
      have pushed : normalizeStep kept first = first :: kept := by
        obtain ⟨noHere, noUp⟩ := direct first List.mem_cons_self
        cases first with
        | root => rfl
        | here => exact absurd rfl noHere
        | up => exact absurd rfl noUp
        | named name => rfl
      rw [List.foldl_cons, ih (fun c member => direct c (List.mem_cons_of_mem _ member)), pushed,
        List.reverse_cons, List.append_assoc, List.singleton_append]

/-- Normalising changes nothing of a direct path. -/
theorem components_normalize_of_isDirect {path : Path} (direct : IsDirect path.components) :
    path.normalize.components = path.components := by
  rw [components_normalize, foldl_normalizeStep_of_isDirect direct, List.append_nil,
    List.reverse_reverse]

/-- What a path ends in directly, its normal form ends in. -/
theorem suffix_components_normalize {path : Path} {row : List Component} (direct : IsDirect row)
    (ends : row <:+ path.components) : row <:+ path.normalize.components := by
  obtain ⟨front, whole⟩ := ends
  rw [components_normalize, ← whole, List.foldl_append, foldl_normalizeStep_of_isDirect direct,
    List.reverse_append, List.reverse_reverse]
  exact List.suffix_append _ _

/-- The segments of a path are its components, but for a mark in front. -/
theorem filterMap_suffix_components (path : Path) :
    path.segments.filterMap Component.ofSegment? <:+ path.components := by
  rw [components]
  split
  · rename_i rooted
    rw [rooted, List.filterMap_cons_none rfl]
    exact List.suffix_cons _ _
  · rename_i marked
    rw [marked, List.filterMap_cons_none rfl]
    exact List.suffix_cons _ _
  · exact List.suffix_refl _

/-- A relative path without a leading `.` has no mark in front. -/
theorem components_eq_filterMap {path : Path} (relative : path.isAbsolute = false)
    (direct : IsDirect path.components) :
    path.components = path.segments.filterMap Component.ofSegment? := by
  have noHere : Component.here ∉ path.components := fun member => (direct _ member).1 rfl
  rw [isAbsolute, beq_eq_false_iff_ne] at relative
  rw [components] at relative noHere ⊢
  split
  · rename_i rooted
    rw [rooted] at relative
    exact absurd rfl relative
  · rename_i marked
    rw [marked] at noHere
    exact absurd List.mem_cons_self noHere
  · rfl

/-- What is read from inside a directory stands at the end. -/
theorem suffix_components_join (base : Path) {path : Path} (relative : path.isAbsolute = false)
    (direct : IsDirect path.components) : path.components <:+ (base.join path).components := by
  have ends : ∀ front : List String, path.components <:+ components ⟨front ++ path.segments⟩ := by
    intro front
    rw [components_eq_filterMap relative direct]
    refine List.IsSuffix.trans ?_ (filterMap_suffix_components _)
    rw [List.filterMap_append]
    exact List.suffix_append _ _
  rw [join]
  split
  · exact List.suffix_refl _
  · split
    · exact ends _
    · exact ends _

/-! ## Plain paths -/

/-- The path is written with one separator between two components and nothing else. -/
def IsPlain (path : Path) : Prop := ofComponents path.components = path

instance (path : Path) : Decidable path.IsPlain :=
  decidable_of_iff ((ofComponents path.components).segments = path.segments) (by
    rw [IsPlain]
    constructor
    · intro same
      cases path
      exact congrArg Path.mk same
    · exact congrArg Path.segments)

/-- **Plain paths that are the same are written the same.** -/
theorem IsPlain.eq_of_beq {a b : Path} (ha : a.IsPlain) (hb : b.IsPlain) (h : (a == b) = true) :
    a = b := by
  rw [← ha, ← hb, beq_iff.1 h]

/-- **Normal forms are plain.** -/
theorem isPlain_normalize (path : Path) : path.normalize.IsPlain := by
  rw [IsPlain, components_normalize]
  rfl

end Path

/-! ## What a set lists -/

namespace PathSet

/-- A set lists a path as it is written exactly when it holds it in that spelling. -/
theorem mem_toList_iff {set : PathSet} {path : Path} :
    path ∈ set.toList ↔ set.get? path = some path := by
  have keys : set.toList = (set.inner.toList).map Prod.fst :=
    Std.ExtTreeMap.map_fst_toList_eq_keys.symm
  rw [keys, List.mem_map]
  constructor
  · rintro ⟨⟨key, value⟩, member, rfl⟩
    exact (Std.ExtTreeMap.mem_toList_iff_getKey?_eq_some_and_getElem?_eq_some.1 member).1
  · intro held
    have present : path ∈ set.inner := Std.ExtTreeMap.mem_of_getKey?_eq_some held
    exact ⟨(path, ()), Std.ExtTreeMap.mem_toList_iff_getKey?_eq_some_and_getElem?_eq_some.2
      ⟨held, Std.ExtTreeMap.getElem?_eq_some_getElem present⟩, rfl⟩

/-- The spelling that a set holds of a path is listed, and is that path. -/
theorem mem_toList_of_get? {set : PathSet} {path held : Path} (h : set.get? path = some held) :
    held ∈ set.toList ∧ (held == path) = true := by
  have same := Std.ExtTreeSet.compare_get?_self (t := set) (k := path)
  rw [h, Option.all_some, decide_eq_true_iff] at same
  refine ⟨?_, Path.beq_iff.2 (Path.compare_eq_iff.1 same)⟩
  rw [mem_toList_iff, Std.ExtTreeSet.get?_congr same, h]

theorem mem_toList_insert {set : PathSet} {path other : Path}
    (h : other ∈ (set.insert path).toList) : other = path ∨ other ∈ set.toList := by
  rw [mem_toList_iff, Std.ExtTreeSet.get?_insert] at h
  split at h
  · exact .inl (Option.some.inj h).symm
  · exact .inr (mem_toList_iff.2 h)

theorem mem_toList_extend {set : PathSet} {paths : List Path} {path : Path}
    (h : path ∈ (set.extend paths).toList) : path ∈ paths ∨ path ∈ set.toList := by
  induction paths generalizing set with
  | nil => exact .inr h
  | cons first rest ih =>
      have grown : path ∈ (extend (set.insert first) rest).toList := h
      rcases ih grown with member | member
      · exact .inl (List.mem_cons_of_mem _ member)
      · rcases mem_toList_insert member with rfl | member
        · exact .inl List.mem_cons_self
        · exact .inr member

theorem mem_toList_erase {set : PathSet} {path other : Path}
    (h : other ∈ (set.erase path).toList) : other ∈ set.toList := by
  rw [mem_toList_iff, Std.ExtTreeSet.get?_erase] at h
  split at h
  · exact absurd h nofun
  · exact mem_toList_iff.2 h

theorem mem_toList_diff {set other : PathSet} {path : Path} (h : path ∈ (set \ other).toList) :
    path ∈ set.toList := by
  rw [mem_toList_iff, Std.ExtTreeSet.get?_diff] at h
  split at h
  · exact absurd h nofun
  · exact mem_toList_iff.2 h

/-! ## Sets of plain paths -/

/-- All paths that the set lists are plain. -/
def Plain (set : PathSet) : Prop := ∀ path ∈ set.toList, path.IsPlain

theorem Plain.empty : Plain ∅ := nofun

/-- A plain path in a plain set is listed as it is written. -/
theorem Plain.mem_toList {set : PathSet} (h : set.Plain) {path : Path} (plain : path.IsPlain)
    (member : set.contains path = true) : path ∈ set.toList := by
  obtain ⟨listed, held, same⟩ := exists_mem_toList member
  rwa [plain.eq_of_beq (h listed held) same]

/-- **Plain sets with the same plain members are equal.** -/
theorem Plain.ext {a b : PathSet} (ha : a.Plain) (hb : b.Plain)
    (h : ∀ path : Path, path.IsPlain → a.contains path = b.contains path) : a = b := by
  -- What one of the sets holds of a key, the other holds in the same spelling.
  have half : ∀ {a b : PathSet}, a.Plain → b.Plain →
      (∀ path : Path, path.IsPlain → a.contains path = b.contains path) →
      ∀ key held, a.get? key = some held → b.get? key = some held := by
    intro a b ha hb h key held got
    obtain ⟨listed, same⟩ := mem_toList_of_get? got
    have plain := ha held listed
    have inOther : held ∈ b.toList :=
      hb.mem_toList plain (by rw [← h held plain]; exact contains_of_mem_toList listed)
    rw [← Std.ExtTreeSet.get?_congr (Path.compare_eq_of_beq same)]
    exact mem_toList_iff.1 inOther
  apply Std.ExtTreeSet.ext_get?
  intro key
  cases inA : a.get? key with
  | some held => exact (half ha hb h key held inA).symm
  | none =>
      cases inB : b.get? key with
      | none => rfl
      | some held =>
          have back := half hb ha (fun path plain => (h path plain).symm) key held inB
          rw [inA] at back
          exact absurd back nofun

theorem Plain.insert {set : PathSet} (h : set.Plain) {path : Path} (plain : path.IsPlain) :
    Plain (set.insert path) := by
  intro other member
  rcases mem_toList_insert member with rfl | member
  · exact plain
  · exact h other member

theorem Plain.erase {set : PathSet} (h : set.Plain) (path : Path) : Plain (set.erase path) :=
  fun other member => h other (mem_toList_erase member)

theorem Plain.extend {set : PathSet} (h : set.Plain) {paths : List Path}
    (plain : ∀ path ∈ paths, path.IsPlain) : (set.extend paths).Plain := by
  intro path member
  rcases mem_toList_extend member with member | member
  · exact plain path member
  · exact h path member

theorem Plain.join {a b : PathSet} (ha : a.Plain) (hb : b.Plain) : (a.join b).Plain :=
  ha.extend hb

theorem Plain.diff {a : PathSet} (ha : a.Plain) (b : PathSet) : (a \ b).Plain :=
  fun path member => ha path (mem_toList_diff member)

theorem Plain.filter {a : PathSet} (ha : a.Plain) (keep : Path → Bool) : Plain (a.filter keep) := by
  intro path member
  rw [Std.ExtTreeSet.toList_filter, List.mem_filter] at member
  exact ha path member.1

/-- What a plain set holds after filtering. -/
theorem Plain.contains_filter {a : PathSet} (ha : a.Plain) (keep : Path → Bool) {path : Path}
    (plain : path.IsPlain) : (a.filter keep).contains path = (a.contains path && keep path) := by
  rw [Bool.eq_iff_iff, Bool.and_eq_true]
  constructor
  · intro member
    have listed := (ha.filter keep).mem_toList plain member
    rw [Std.ExtTreeSet.toList_filter, List.mem_filter] at listed
    exact ⟨contains_of_mem_toList listed.1, listed.2⟩
  · rintro ⟨member, kept⟩
    apply contains_of_mem_toList
    rw [Std.ExtTreeSet.toList_filter, List.mem_filter]
    exact ⟨ha.mem_toList plain member, kept⟩

end PathSet

/-! ## Tables with plain keys -/

namespace PathMap

variable {β : Type}

/-- What a table holds after its keys were filtered. -/
theorem getElem?_filter_keys (table : PathMap β) {keep : Path → Bool}
    (congr : ∀ a b : Path, (a == b) = true → keep a = keep b) (path : Path) :
    (table.filter fun key _ => keep key)[path]? = if keep path then table[path]? else none := by
  cases stored : table.getKey? path with
  | none =>
      have absent : path ∉ table := by
        rw [Std.ExtTreeMap.mem_iff_isSome_getKey?, stored]
        nofun
      have absent' : path ∉ table.filter fun key _ => keep key :=
        fun member => absent (Std.ExtTreeMap.mem_of_mem_filter member)
      rw [Std.ExtTreeMap.getElem?_eq_none absent, Std.ExtTreeMap.getElem?_eq_none absent', ite_self]
  | some key =>
      have same := Std.ExtTreeMap.compare_getKey?_self (t := table) (k := path)
      rw [stored, Option.all_some, decide_eq_true_iff, Path.compare_eq_iff, ← Path.beq_iff] at same
      rw [Std.ExtTreeMap.getElem?_filter_of_getKey?_eq_some stored, congr key path same]
      cases table[path]? with
      | none => rw [Option.filter_none, ite_self]
      | some value => rw [Option.filter_some]

/-- All keys of the table are plain. -/
def PlainKeys (table : PathMap β) : Prop := ∀ entry ∈ table.toList, entry.1.IsPlain

theorem PlainKeys.empty : PlainKeys (∅ : PathMap β) := nofun

/-- A plain path is listed as it is written, with what is stored for it. -/
theorem PlainKeys.mem_toList_iff {table : PathMap β} (h : table.PlainKeys) {path : Path}
    (plain : path.IsPlain) {value : β} :
    (path, value) ∈ table.toList ↔ table[path]? = some value := by
  constructor
  · intro member
    exact (Std.ExtTreeMap.mem_toList_iff_getKey?_eq_some_and_getElem?_eq_some.1 member).2
  · intro stored
    obtain ⟨key, same, member⟩ :=
      Std.ExtTreeMap.getElem?_eq_some_iff_exists_compare_eq_eq_and_mem_toList.1 stored
    have eq := plain.eq_of_beq (h _ member) (Path.beq_iff.2 (Path.compare_eq_iff.1 same))
    rwa [eq]

theorem PlainKeys.filter {table : PathMap β} (h : table.PlainKeys) (keep : Path → β → Bool) :
    PlainKeys (table.filter keep) := by
  intro entry member
  rw [Std.ExtTreeMap.toList_filter, List.mem_filter] at member
  exact h entry member.1

theorem PlainKeys.put {table : PathMap β} (h : table.PlainKeys) {path : Path}
    (plain : path.IsPlain) (value : β) : (table.put path value).PlainKeys := by
  rintro ⟨key, stored⟩ member
  have listed := (Std.ExtTreeMap.mem_toList_iff_getKey?_eq_some_and_getElem?_eq_some.1 member).1
  rw [PathMap.put, Std.ExtTreeMap.getKey?_insert] at listed
  split at listed
  · -- An entry for the path keeps the spelling that its key had.
    obtain rfl : table.getKeyD path path = key := Option.some.inj listed
    by_cases present : path ∈ table
    · have held : table.getKey? path = some (table.getKeyD path path) :=
        Std.ExtTreeMap.getKey?_eq_some_getKeyD present
      have inTable : table.getKeyD path path ∈ table := Std.ExtTreeMap.mem_of_getKey?_eq_some held
      have own : table.getKey? (table.getKeyD path path) = some (table.getKeyD path path) := by
        rw [Std.ExtTreeMap.getKey?_congr (Path.compare_eq_of_beq (getKeyD_beq table path)), held]
      exact h (_, table[table.getKeyD path path])
        (Std.ExtTreeMap.mem_toList_iff_getKey?_eq_some_and_getElem?_eq_some.2
          ⟨own, Std.ExtTreeMap.getElem?_eq_some_getElem inTable⟩)
    · rw [Std.ExtTreeMap.getKeyD_eq_fallback present]
      exact plain
  · have there : key ∈ table := Std.ExtTreeMap.mem_of_getKey?_eq_some listed
    exact h (key, table[key]) (Std.ExtTreeMap.mem_toList_iff_getKey?_eq_some_and_getElem?_eq_some.2
      ⟨listed, Std.ExtTreeMap.getElem?_eq_some_getElem there⟩)

end PathMap

end SvServer
