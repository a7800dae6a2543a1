import SvServer.Project.Discovery
import SvServer.Proofs.PathSet
import SvServer.Proofs.PlainPath

/-!
# Where walks look

A walk goes down from its root and passes over all names that begin with a dot, so no step of it
leads up again. What it finds lies beneath the root, provided that the root is in normal form: a
file is kept under its normal form, and going down from a normal path stays normal.
-/

namespace SvServer

namespace Path

/-! ## Normal forms -/

/-- Going through what was kept once more keeps each component. -/
def Stays : List Component → Prop
  | [] => True
  | component :: below => normalizeStep below component = component :: below ∧ Stays below

theorem Stays.step {kept : List Component} (h : Stays kept) (component : Component) :
    Stays (normalizeStep kept component) := by
  cases component with
  | root => exact ⟨rfl, h⟩
  | here => exact h
  | named name => exact ⟨rfl, h⟩
  | up =>
      cases kept with
      | nil => exact ⟨rfl, h⟩
      | cons top below =>
          cases top with
          | root => exact ⟨rfl, h⟩
          | up => exact ⟨rfl, h⟩
          | here => exact h.2
          | named name => exact h.2

theorem Stays.foldl {kept : List Component} (h : Stays kept) (components : List Component) :
    Stays (components.foldl normalizeStep kept) := by
  induction components generalizing kept with
  | nil => exact h
  | cons first rest ih => exact ih (h.step first)

theorem Stays.foldl_reverse {kept : List Component} (h : Stays kept) :
    kept.reverse.foldl normalizeStep [] = kept := by
  induction kept with
  | nil => rfl
  | cons top below ih =>
      rw [List.reverse_cons, List.foldl_append, ih h.2]
      exact h.1

/-- The path is its own normal form, up to its spelling. -/
def IsNormal (path : Path) : Prop := path.normalize.components = path.components

instance (path : Path) : Decidable path.IsNormal := inferInstanceAs (Decidable (_ = _))

/-- **Normalising twice is normalising once.** -/
theorem isNormal_normalize (path : Path) : path.normalize.IsNormal := by
  have nothing : Stays [] := trivial
  rw [IsNormal, components_normalize path.normalize, components_normalize,
    (nothing.foldl path.components).foldl_reverse]

theorem normalize_normalize (path : Path) : path.normalize.normalize = path.normalize :=
  (isPlain_normalize _).eq_of_beq (isPlain_normalize _) (beq_iff.2 path.isNormal_normalize)

/-- Going down from a normal path stays normal. -/
theorem IsNormal.append {root path : Path} {row : List Component} (normal : root.IsNormal)
    (direct : IsDirect row) (below : path.components = root.components ++ row) :
    path.IsNormal := by
  rw [IsNormal, components_normalize, below, List.foldl_append,
    foldl_normalizeStep_of_isDirect direct, List.reverse_append, List.reverse_reverse,
    ← components_normalize, normal]

/-! ## What is in a folder -/

/-- The component that the front of a row of segments stands for beside its names. -/
def mark : List String → List Component
  | "" :: _ :: _ => [.root]
  | "." :: _ => [.here]
  | _ => []

theorem components_eq_mark (path : Path) :
    path.components = mark path.segments ++ path.segments.filterMap Component.ofSegment? := by
  rw [components]
  split
  · rename_i rooted
    rw [rooted]
    rfl
  · rename_i marked
    rw [marked]
    rfl
  · rename_i notRooted notMarked
    rw [mark]
    · rfl
    · exact notRooted
    · exact notMarked

/-- What is written behind a row does not change the mark in front of it. -/
theorem mark_append {front : List String} (some : front ≠ []) (named : front ≠ [""])
    (rest : List String) : mark (front ++ rest) = mark front := by
  match front with
  | [] => exact absurd rfl some
  | [first] =>
      by_cases dot : first = "."
      · rw [dot]
        rfl
      · have blank : first ≠ "" := fun same => named (by rw [same])
        simp [mark, dot, blank]
  | first :: second :: more =>
      by_cases dot : first = "."
      · rw [dot]
        rfl
      · by_cases blank : first = ""
        · rw [blank]
          rfl
        · simp [mark, dot, blank]

/-- A single name is never an absolute path. -/
theorem isAbsolute_name (name : String) : isAbsolute ⟨[name]⟩ = false := by
  rw [isAbsolute, components_eq_mark, beq_eq_false_iff_ne]
  by_cases dot : name = "."
  · rw [dot]
    decide
  · intro first
    cases read : Component.ofSegment? name with
    | none => simp [mark, dot, read] at first
    | some component =>
        have inner := Component.isInner_of_ofSegment? read
        have unmarked : mark [name] = [] := by simp [mark, dot]
        rw [unmarked, List.filterMap_cons_some read] at first
        rw [Option.some.inj first] at inner
        exact inner

/-- **A relative path is read as the folder that it is read from and then its own segments.** Only in
the folder that has no components may a mark stand for something. -/
theorem components_join (base : Path) {path : Path} (relative : path.isAbsolute = false)
    (some_ : path.segments ≠ [])
    (unmarked : base.components = [] → mark path.segments = []) :
    (base.join path).components =
      base.components ++ path.segments.filterMap Component.ofSegment? := by
  rw [join, relative, Bool.false_or]
  split
  · rename_i same
    have blank : base.components = [] := by
      rw [components_eq_mark, beq_iff_eq.1 same]
      rfl
    rw [components_eq_mark, unmarked blank, blank, List.nil_append]
  · rename_i notBlank
    rw [beq_iff_eq] at notBlank
    rw [components_eq_mark base]
    split
    · -- The folder is spelled with a separator at its end, behind which the path is put.
      rename_i slash
      rw [beq_iff_eq] at slash
      obtain ⟨init, whole⟩ := List.getLast?_eq_some_iff.1 slash
      rw [whole, List.dropLast_concat, components_eq_mark]
      rw [whole] at notBlank
      have some : init ≠ [] := by
        rintro rfl
        exact notBlank rfl
      have dropped : [""].filterMap Component.ofSegment? = [] := rfl
      simp only [List.filterMap_append, dropped, List.append_nil, ← List.append_assoc]
      congr 2
      by_cases root : init = [""]
      · obtain ⟨first, rest, row⟩ := List.exists_cons_of_ne_nil some_
        rw [root, row]
        rfl
      · rw [mark_append some root, mark_append some root]
    · rw [components_eq_mark, List.filterMap_append, ← List.append_assoc]
      congr 2
      by_cases none : base.segments = []
      · rw [none]
        exact unmarked (by rw [components_eq_mark, none]; rfl)
      · exact mark_append none notBlank _

/-- An entry of a folder is read as the folder and then the name. Only in the folder that has no
components may a dot stand for something. -/
theorem components_child (path : Path) {name : String}
    (ordinary : path.components = [] → name ≠ ".") :
    (path.child name).components = path.components ++ [name].filterMap Component.ofSegment? :=
  components_join path (isAbsolute_name name) (List.cons_ne_nil _ _) fun blank => by
    simp [mark, ordinary blank]

/-- An ordinary name leads one component down. -/
theorem components_child_of_inner (path : Path) {name : String}
    (inner : (Component.named name).IsInner) :
    (path.child name).components = path.components ++ [.named name] := by
  have read : Component.ofSegment? name = some (.named name) := Component.ofSegment?_text inner
  rw [components_child path fun _ => inner.2.1, List.filterMap_cons_some read]
  rfl

/-- **What is in a folder lies beneath it.** -/
theorem isUnder_child (path : Path) (name : String) : (path.child name).isUnder path = true := by
  rw [isUnder_iff]
  by_cases blank : path.components = []
  · rw [blank]
    exact List.nil_prefix
  · rw [components_child path fun same => absurd same blank]
    exact List.prefix_append _ _

/-- The path is reached from another one by going down only. -/
def IsBelow (path root : Path) : Prop :=
  ∃ row, IsDirect row ∧ path.components = root.components ++ row

theorem IsBelow.refl (root : Path) : root.IsBelow root := ⟨[], nofun, (List.append_nil _).symm⟩

theorem IsBelow.isUnder {path root : Path} (h : path.IsBelow root) : path.isUnder root = true := by
  obtain ⟨row, -, whole⟩ := h
  rw [isUnder_iff, whole]
  exact List.prefix_append _ _

/-- Names that a walk does not pass over lead down. -/
theorem IsBelow.child {path root : Path} (h : path.IsBelow root) {name : String}
    (visible : isHidden name = false) : (path.child name).IsBelow root := by
  obtain ⟨row, direct, whole⟩ := h
  have ordinary : name ≠ "." := by
    rintro rfl
    exact absurd visible (by decide +kernel)
  have down : IsDirect ([name].filterMap Component.ofSegment?) := by
    intro component member
    obtain ⟨segment, listed, read⟩ := List.mem_filterMap.1 member
    rw [List.mem_singleton.1 listed, Component.ofSegment?] at read
    split at read
    · cases read
    · split at read
      · rename_i up
        rw [up] at visible
        exact absurd visible (by decide +kernel)
      · rw [← Option.some.inj read]
        exact ⟨Component.noConfusion, Component.noConfusion⟩
  refine ⟨row ++ [name].filterMap Component.ofSegment?, ?_, ?_⟩
  · intro component member
    rcases List.mem_append.1 member with member | member
    · exact direct component member
    · exact down component member
  · rw [components_child path fun _ => ordinary, whole, List.append_assoc]

/-- What lies below a path lies below each path on the way, too. -/
theorem IsBelow.of_isUnder {path between root : Path} (h : path.IsBelow root)
    (inside : between.isUnder root = true) (beneath : path.isUnder between = true) :
    path.IsBelow between := by
  obtain ⟨row, direct, whole⟩ := h
  obtain ⟨front, outer⟩ := isUnder_iff.1 inside
  obtain ⟨back, inner⟩ := isUnder_iff.1 beneath
  have parts : row = front ++ back := by
    rw [← inner, ← outer, List.append_assoc] at whole
    exact (List.append_cancel_left whole).symm
  refine ⟨back, fun component listed => direct component ?_, inner.symm⟩
  rw [parts]
  exact List.mem_append_right _ listed

/-- Normalising what lies below a normal path leads nowhere else. -/
theorem IsBelow.isUnder_normalize {path root : Path} (h : path.IsBelow root)
    (normal : root.IsNormal) : path.normalize.isUnder root = true := by
  obtain ⟨row, direct, whole⟩ := h
  rw [isUnder_iff, normal.append direct whole, whole]
  exact List.prefix_append _ _

theorem isUnder_congr {a b : Path} (h : (a == b) = true) (root : Path) :
    a.isUnder root = b.isUnder root := by
  rw [isUnder, isUnder, beq_iff.1 h]

/-- Of two paths above one path, one lies above the other. -/
theorem isUnder_or_isUnder {path a b : Path} (ha : path.isUnder a = true)
    (hb : path.isUnder b = true) : a.isUnder b = true ∨ b.isUnder a = true := by
  simp only [isUnder_iff] at ha hb ⊢
  exact (List.prefix_or_prefix_of_prefix ha hb).symm

end Path

/-! ## Walks -/

namespace Discovery

@[simp] theorem files_visit (scan : Discovery) (rules : DiscoveryRules) :
    (scan.visit rules).files = scan.files := by
  rw [visit]
  split
  · rfl
  · split <;> rfl

/-- A file is collected under its normal form. -/
theorem contains_collect {scan : Discovery} {rules : DiscoveryRules} {path file : Path}
    (found : (scan.collect rules path).files.contains file = true) :
    scan.files.contains file = true ∨ (path.normalize == file) = true := by
  rw [collect] at found
  split at found
  · exact .inl found
  · split at found
    · exact .inl found
    · rw [PathSet.contains_insert, Bool.or_eq_true] at found
      exact found.symm

end Discovery

open SvServer.Path in
/-- What a walk of a folder adds lies beneath the root that the folder lies below. -/
theorem Folder.isUnder_of_discover (rules : DiscoveryRules) {root : Path} (normal : root.IsNormal)
    {file : Path} (folder : Folder) {path : Path} (below : path.IsBelow root) {scan : Discovery}
    (found : (folder.discover rules path scan).files.contains file = true) :
    scan.files.contains file = true ∨ file.isUnder root = true := by
  induction folder generalizing path scan with
  | empty => exact .inl found
  | file name contents rest ih =>
      rw [discover] at found
      rcases ih below found with here | beneath
      · split at here
        · exact .inl here
        · rename_i visible
          rw [Bool.not_eq_true] at visible
          rcases Discovery.contains_collect here with known | collected
          · rw [Discovery.files_visit] at known
            exact .inl known
          · rw [← isUnder_congr collected]
            exact .inr ((below.child visible).isUnder_normalize normal)
      · exact .inr beneath
  | folder name readable inside rest ihInside ihRest =>
      rw [discover] at found
      rcases ihRest below found with here | beneath
      · split at here
        · exact .inl here
        · rename_i entered
          simp only [Bool.or_eq_true, not_or, Bool.not_eq_true] at entered
          split at here
          · rcases ihInside (below.child entered.1.1) here with known | beneath
            · rw [Discovery.files_visit] at known
              exact .inl known
            · exact .inr beneath
          · rw [Discovery.files_visit] at here
            exact .inl here
      · exact .inr beneath

/-- **A walk finds files beneath its root only.** -/
theorem Disk.isUnder_of_discover (disk : Disk) {root : Path} (normal : root.IsNormal)
    (rules : DiscoveryRules) {file : Path}
    (found : (disk.discover root rules).files.contains file = true) : file.isUnder root = true := by
  have nothing : (Discovery.empty.visit rules).files.contains file = false := by
    rw [Discovery.files_visit]
    exact Std.ExtTreeSet.contains_empty
  rw [discover] at found
  split at found
  · exact absurd found PathSet.not_contains_empty
  · rcases Discovery.contains_collect found with known | collected
    · rw [nothing] at known
      exact absurd known (by decide)
    · rw [← Path.isUnder_congr collected]
      exact (Path.IsBelow.refl root).isUnder_normalize normal
  · split at found
    · exact absurd found PathSet.not_contains_empty
    · split at found
      · rcases Folder.isUnder_of_discover rules normal _ (.refl root) found with known | beneath
        · rw [nothing] at known
          exact absurd known (by decide)
        · exact beneath
      · rw [nothing] at found
        exact absurd found (by decide)

end SvServer
