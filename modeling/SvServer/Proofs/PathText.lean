import SvServer.Proofs.Project.Discovery

/-!
# Paths and their texts

A path is written as its segments with separators between them. Read back, the text gives the same
path, provided that no segment holds a separator itself; no name on a disk does. A path beneath a
root may also be written from the root on, and is read back by joining that to the root.
-/

namespace SvServer.Path

/-! ## Separators -/

theorem splitChars_append {front : List Char} (whole : '/' ∉ front) (rest : List Char) :
    splitChars (front ++ '/' :: rest) = front :: splitChars rest := by
  induction front with
  | nil => simp [splitChars]
  | cons c more ih =>
      rw [List.mem_cons, not_or] at whole
      simp [splitChars, Ne.symm whole.1, ih whole.2]

theorem splitChars_of_not_mem {text : List Char} (whole : '/' ∉ text) :
    splitChars text = [text] := by
  induction text with
  | nil => rfl
  | cons c more ih =>
      rw [List.mem_cons, not_or] at whole
      simp [splitChars, Ne.symm whole.1, ih whole.2]

/-- Pieces that hold no separator are what is found between the separators. -/
theorem splitChars_intercalate {pieces : List (List Char)} (some : pieces ≠ [])
    (whole : ∀ piece ∈ pieces, '/' ∉ piece) :
    splitChars (['/'].intercalate pieces) = pieces := by
  induction pieces with
  | nil => exact absurd rfl some
  | cons first rest ih =>
      have here := whole first List.mem_cons_self
      cases rest with
      | nil => simpa using splitChars_of_not_mem here
      | cons second more =>
          rw [List.intercalate_cons_cons, List.append_assoc, List.singleton_append,
            splitChars_append here, ih (List.cons_ne_nil _ _)
              fun piece member => whole piece (List.mem_cons_of_mem _ member)]

/-- No segment of the path holds a separator. -/
def Slashless (path : Path) : Prop := ∀ segment ∈ path.segments, '/' ∉ segment.toList

/-- **A path is read back from its text.** -/
theorem ofString_toString {path : Path} (some : path.segments ≠ []) (slashless : path.Slashless) :
    ofString path.toString = path := by
  have separator : "/".toList = ['/'] := rfl
  obtain ⟨segments⟩ := path
  rw [ofString, toString, String.toList_intercalate, separator, splitChars_intercalate, List.map_map]
  · congr 1
    simp [Function.comp_def]
  · simpa using some
  · rw [List.forall_mem_map]
    exact slashless

/-- The segments of a path hold separators only where its names do. -/
theorem slashless_iff {path : Path} :
    path.Slashless ↔ ∀ name, .named name ∈ path.components → '/' ∉ name.toList := by
  have named : ∀ name, .named name ∈ path.components ↔
      name ∈ path.segments ∧ Component.ofSegment? name = some (.named name) := by
    intro name
    have unmarked : Component.named name ∉ mark path.segments := by
      unfold mark
      split <;> simp
    rw [components_eq_mark, List.mem_append, or_iff_right unmarked, List.mem_filterMap]
    constructor
    · rintro ⟨segment, listed, read⟩
      have same : segment = name := by
        simp only [Component.ofSegment?] at read
        split at read
        · cases read
        · split at read <;> simp_all
      rw [same] at listed read
      exact ⟨listed, read⟩
    · rintro ⟨listed, read⟩
      exact ⟨name, listed, read⟩
  simp only [named]
  constructor
  · exact fun slashless name listed => slashless name listed.1
  · intro slashless segment listed
    -- What stands for no name is empty or made of dots.
    by_cases none : segment = "" ∨ segment = "."
    · rcases none with rfl | rfl <;> decide
    · by_cases up : segment = ".."
      · rw [up]
        decide
      · exact slashless segment ⟨listed, by simp only [Component.ofSegment?, none, up, if_false]⟩

theorem Slashless.congr {a b : Path} (h : a.Slashless) (same : (a == b) = true) : b.Slashless := by
  rw [slashless_iff] at h ⊢
  rwa [← beq_iff.1 same]

/-! ## Normal forms -/

/-- A row of components as the normal form of a path has it. -/
structure NormalForm (row : List Component) : Prop where
  isNormalRow : IsNormalRow row
  stays : Stays row.reverse

theorem normalForm_of_normalize_eq {path : Path} (normal : path.normalize = path) :
    NormalForm path.components := by
  have nothing : Stays [] := trivial
  rw [← normal, components_normalize]
  refine ⟨(isKept_components path).isNormalRow_reverse, ?_⟩
  rw [List.reverse_reverse]
  exact nothing.foldl path.components

/-- **Rows in normal form are written as normal forms are.** -/
theorem NormalForm.normalize_ofComponents {row : List Component} (h : NormalForm row) :
    (ofComponents row).normalize = ofComponents row := by
  have folded := h.stays.foldl_reverse
  rw [List.reverse_reverse] at folded
  rw [normalize, components_ofComponents h.isNormalRow, folded, List.reverse_reverse]

theorem stays_of_append {above below : List Component} (h : Stays (above ++ below)) :
    Stays below := by
  induction above with
  | nil => exact h
  | cons first rest ih => exact ih h.2

/-- What a row in normal form begins with is in normal form. -/
theorem NormalForm.front {front rest : List Component} (h : NormalForm (front ++ rest)) :
    NormalForm front where
  isNormalRow := by
    have whole := h.isNormalRow
    cases front with
    | nil => trivial
    | cons first more =>
        exact ⟨whole.1, fun c member => whole.2 c (List.mem_append_left _ member)⟩
  stays := by
    have whole := h.stays
    rw [List.reverse_append] at whole
    exact stays_of_append whole

/-- Names go behind a row in normal form. -/
theorem NormalForm.concat {row : List Component} (h : NormalForm row) {name : String}
    (inner : (Component.named name).IsInner) : NormalForm (row ++ [.named name]) where
  isNormalRow := by
    have whole := h.isNormalRow
    cases row with
    | nil => exact ⟨.inr inner, nofun⟩
    | cons first rest =>
        refine ⟨whole.1, fun c member => ?_⟩
        rcases List.mem_append.1 member with member | member
        · exact whole.2 c member
        · rw [List.mem_singleton.1 member]
          exact inner
  stays := by
    rw [List.reverse_append]
    exact ⟨rfl, h.stays⟩

/-- The last segment of a plain path stands for its last component. -/
theorem getLast?_ofComponents {row : List Component} (h : IsNormalRow row) (nonempty : row ≠ [])
    (deep : row ≠ [.root]) : (ofComponents row).segments.getLast? ≠ some "" := by
  have inner : ∀ c ∈ row.getLast?, c.IsInner := by
    intro c last
    obtain ⟨front, rfl⟩ := List.getLast?_eq_some_iff.1 last
    cases front with
    | nil => exact h.1.resolve_left fun same => deep (by rw [same]; rfl)
    | cons first rest => exact h.2 c (List.mem_append_right _ List.mem_cons_self)
  have text : (row.map Component.text).getLast? ≠ some "" := by
    rw [List.getLast?_map]
    intro last
    obtain ⟨c, last, blank⟩ := Option.map_eq_some_iff.1 last
    have named := inner c last
    cases c with
    | root => exact named
    | here => exact named
    | up => exact absurd blank (by decide)
    | named name => exact named.1 blank
  cases row with
  | nil => exact absurd rfl nonempty
  | cons first rest =>
      cases first with
      | root =>
          cases rest with
          | nil => exact absurd rfl deep
          | cons second more => exact text
      | here => exact text
      | up => exact text
      | named name => exact text

/-- Beneath the root directory and beneath relative paths, a row is written behind what it
continues. -/
theorem segments_ofComponents_append {row : List Component} (nonempty : row ≠ [])
    (deep : row ≠ [.root]) (more : List Component) :
    (ofComponents (row ++ more)).segments =
      (ofComponents row).segments ++ more.map Component.text := by
  cases row with
  | nil => exact absurd rfl nonempty
  | cons first rest =>
      cases first with
      | root =>
          cases rest with
          | nil => exact absurd rfl deep
          | cons second rest => simp [ofComponents]
      | here => simp [ofComponents]
      | up => simp [ofComponents]
      | named name => simp [ofComponents]

/-- **Going down from a plain path is writing one more name.** -/
theorem ofComponents_concat {row : List Component} (h : IsNormalRow row) (name : String) :
    ofComponents (row ++ [.named name]) = (ofComponents row).child name := by
  rw [child, join, isAbsolute_name, Bool.false_or]
  by_cases none : row = []
  · rw [none]
    rfl
  · by_cases root : row = [.root]
    · rw [root]
      rfl
    · have last := getLast?_ofComponents h none root
      have notBlank : (ofComponents row).segments ≠ [""] := by
        intro blank
        rw [blank] at last
        exact last rfl
      rw [if_neg (by simpa using notBlank), if_neg (by simpa using last)]
      exact congrArg Path.mk (segments_ofComponents_append none root [.named name])

/-- What is written in its normal form is written plainly. -/
theorem ofComponents_components {path : Path} (normal : path.normalize = path) :
    ofComponents path.components = path := by
  have plain := path.isPlain_normalize
  rwa [normal] at plain

theorem normalize_child {folder : Path} (normal : folder.normalize = folder) {name : String}
    (inner : (Component.named name).IsInner) :
    (folder.child name).normalize = folder.child name := by
  have form := normalForm_of_normalize_eq normal
  rw [← ofComponents_components normal, ← ofComponents_concat form.isNormalRow]
  exact (form.concat inner).normalize_ofComponents

/-- The text of a path is empty only if it has no components. -/
theorem toString_ne_empty {path : Path} (nonempty : path.components ≠ []) :
    path.toString ≠ "" := by
  intro blank
  obtain ⟨segments⟩ := path
  cases segments with
  | nil => exact nonempty rfl
  | cons first rest =>
      cases rest with
      | nil =>
          rw [toString, String.intercalate_singleton] at blank
          rw [blank] at nonempty
          exact nonempty rfl
      | cons second more => simp [toString, String.intercalate_cons_cons] at blank

/-- Paths with the same components have the same normal form. -/
theorem normalize_congr {a b : Path} (same : (a == b) = true) : a.normalize = b.normalize := by
  rw [normalize, normalize, beq_iff.1 same]

/-! ## What is read back -/

theorem segments_ne_nil_of_normalize_eq {path : Path} (normal : path.normalize = path) :
    path.segments ≠ [] := by
  rw [← normal, normalize]
  intro none
  generalize (path.components.foldl normalizeStep []).reverse = row at none
  cases row with
  | nil => cases none
  | cons first rest =>
      cases first with
      | root => cases rest <;> cases none
      | here => cases none
      | up => cases none
      | named name => cases none

/-- A longer plain path begins as a front of it does. -/
theorem isAbsolute_ofComponents_append {row more : List Component} (h : IsNormalRow (row ++ more))
    (front : IsNormalRow row) (nonempty : row ≠ []) :
    (ofComponents (row ++ more)).isAbsolute = (ofComponents row).isAbsolute := by
  obtain ⟨first, rest, rfl⟩ := List.exists_cons_of_ne_nil nonempty
  rw [isAbsolute, isAbsolute, components_ofComponents h, components_ofComponents front]
  rfl

/-- The text of a longer plain path goes on behind that of the shorter. -/
theorem toString_ofComponents_concat {row : List Component} (normal :
    (ofComponents row).normalize = ofComponents row) (nonempty : row ≠ []) (deep : row ≠ [.root])
    (last : Component) : (ofComponents (row ++ [last])).toString =
      (ofComponents row).toString ++ ("/" ++ last.text) := by
  rw [toString, toString, segments_ofComponents_append nonempty deep, List.map_singleton,
    String.intercalate_append_of_ne_nil (segments_ne_nil_of_normalize_eq normal)
      (List.cons_ne_nil _ _),
    String.intercalate_singleton, String.append_assoc]

/-- **An absolute path is read back from anywhere.** -/
theorem normalize_join_toString (base : Path) {path : Path} (normal : path.normalize = path)
    (slashless : path.Slashless) (absolute : path.isAbsolute = true) :
    (base.join (ofString path.toString)).normalize = path := by
  rw [ofString_toString (segments_ne_nil_of_normalize_eq normal) slashless, join, absolute,
    Bool.true_or, if_pos rfl, normal]

/-- A row of inner components, written with separators between them, is a relative path. -/
theorem components_join_inner (base : Path) {row : List Component} (inner : ∀ c ∈ row, c.IsInner)
    (slashless : ∀ c ∈ row, '/' ∉ c.text.toList) :
    (base.join (ofString (String.intercalate "/" (row.map Component.text)))).components =
      base.components ++ row := by
  cases row with
  | nil => exact components_join base (by decide) (by decide) fun _ => rfl
  | cons first rest =>
      have separate : Slashless ⟨(first :: rest).map Component.text⟩ := by
        rintro segment listed
        obtain ⟨c, member, rfl⟩ := List.mem_map.1 listed
        exact slashless c member
      have read : ofString (String.intercalate "/" ((first :: rest).map Component.text)) =
          ⟨(first :: rest).map Component.text⟩ := ofString_toString (by simp) separate
      have kept := Component.filterMap_ofSegment?_text inner
      have unmarked : mark ((first :: rest).map Component.text) = [] := by
        have here := inner first List.mem_cons_self
        cases first with
        | root => exact absurd here id
        | here => exact absurd here id
        | up => simp [mark, Component.text]
        | named name => simp [mark, Component.text, here.1, here.2.1]
      have relative : isAbsolute ⟨(first :: rest).map Component.text⟩ = false := by
        rw [isAbsolute, components_eq_mark, unmarked, kept, List.nil_append, List.head?_cons,
          beq_eq_false_iff_ne]
        intro same
        have here := inner first List.mem_cons_self
        rw [Option.some.inj same] at here
        exact here
      rw [read, components_join base relative (by simp) fun _ => unmarked, kept]

/-- **What is written from a root on is read back from that root.** -/
theorem normalize_join_relativeTo {path root : Path} {text : String}
    (normal : path.normalize = path) (slashless : path.Slashless) (rooted : root.components ≠ [])
    (written : path.relativeTo? root = some text) :
    (root.join (ofString text)).normalize = path := by
  rw [relativeTo?] at written
  split at written
  · rename_i beneath
    obtain ⟨row, whole⟩ := isUnder_iff.1 beneath
    rw [← Option.some.inj written, ← whole, List.drop_left]
    have inner : ∀ c ∈ row, c.IsInner := by
      intro c member
      refine path.isInner_of_mem_tail c ?_
      obtain ⟨first, rest, start⟩ := List.exists_cons_of_ne_nil rooted
      rw [← whole, start]
      exact List.mem_append_right rest member
    have separate : ∀ c ∈ row, '/' ∉ c.text.toList := by
      intro c member
      cases c with
      | root => exact absurd (inner _ member) id
      | here => decide
      | up => decide
      | named name =>
          refine slashless_iff.1 slashless name ?_
          rw [← whole]
          exact List.mem_append_right _ member
    rw [← normal]
    refine normalize_congr (beq_iff.2 ?_)
    rw [components_join_inner root inner separate, whole]
  · cases written

end SvServer.Path
