import Mathlib.Data.List.Induction
import SvServer.Include.Sources
import SvServer.Proofs.Include.Resolve
import SvServer.Proofs.Project.Discovery

/-!
# The meaning of an include name

What a name stands for can be said without a search. An absolute name stands for itself, a relative
one for the file at that place beside the directive, and if there is none, for the first of all
eligible files that end in the name. The search looks at one file name only and brings the name into
normal form before it joins it to a folder; neither shows in the result.
-/

namespace SvServer

namespace Path

/-! ## Normal forms within a path -/

/-- A row of steps leads as far as its normal form does, from wherever it is walked. -/
theorem foldl_normalizeStep_foldl (row kept : List Component) :
    (row.foldl normalizeStep []).reverse.foldl normalizeStep kept =
      row.foldl normalizeStep kept := by
  induction row using List.reverseRecOn with
  | nil => rfl
  | append_singleton front last ih =>
      have nothing : Stays [] := trivial
      have stays := nothing.foldl front
      have pushed : ∀ walked : List Component, (last :: walked).reverse.foldl normalizeStep kept =
          normalizeStep (walked.reverse.foldl normalizeStep kept) last := by
        intro walked
        rw [List.reverse_cons, List.foldl_append]
        rfl
      simp only [List.foldl_append, List.foldl_cons, List.foldl_nil]
      rw [← ih]
      generalize front.foldl normalizeStep [] = walked at stays ⊢
      cases last with
      | root => exact pushed walked
      | here => rfl
      | named name => exact pushed walked
      | up =>
          cases walked with
          | nil => exact pushed []
          | cons top below =>
              cases top with
              | root => exact pushed _
              | up => exact pushed _
              | here =>
                  have dropped : below = .here :: below := stays.1
                  exact absurd (congrArg List.length dropped) (Nat.succ_ne_self _).symm
              | named name =>
                  -- Here and behind any folder, going up undoes the step into the name.
                  rw [List.reverse_cons, List.foldl_append]
                  rfl

/-- The mark in front of a relative path leads nowhere. -/
theorem foldl_components_of_relative {path : Path} (relative : path.isAbsolute = false)
    (kept : List Component) : path.components.foldl normalizeStep kept =
      (path.segments.filterMap Component.ofSegment?).foldl normalizeStep kept := by
  rw [isAbsolute, components_eq_mark, beq_eq_false_iff_ne] at relative
  rw [components_eq_mark, List.foldl_append]
  unfold mark at relative ⊢
  split
  · rename_i rooted
    rw [rooted] at relative
    exact absurd rfl relative
  · rfl
  · rfl

/-- Some segment is written in every path that is read from a text. -/
theorem segments_ofString_ne_nil (text : String) : (ofString text).segments ≠ [] := by
  rw [ofString]
  intro none
  have pieces := List.map_eq_nil_iff.1 none
  cases chars : text.toList with
  | nil =>
      rw [chars] at pieces
      exact absurd pieces nofun
  | cons first rest =>
      rw [chars, splitChars] at pieces
      split at pieces
      · exact absurd pieces nofun
      · split at pieces <;> exact absurd pieces nofun

/-- So too in every normal form. -/
theorem segments_normalize_ne_nil (path : Path) : path.normalize.segments ≠ [] := by
  rw [normalize]
  unfold ofComponents
  split
  · exact List.cons_ne_nil _ _
  · exact List.cons_ne_nil _ _
  · exact List.cons_ne_nil _ _
  · rename_i some _ _
    exact fun none => some (List.map_eq_nil_iff.1 none)

/-- **A relative path may be normalised before it is read from a folder.** -/
theorem normalize_join_normalize {base path : Path} (absolute : base.isAbsolute = true)
    (relative : path.isAbsolute = false) (written : path.segments ≠ []) :
    (base.join path.normalize).normalize = (base.join path).normalize := by
  have marked : base.components ≠ [] := by
    intro none
    rw [isAbsolute, none] at absolute
    exact Bool.false_ne_true absolute
  have relative' : path.normalize.isAbsolute = false := by rwa [isAbsolute_normalize]
  refine (isPlain_normalize _).eq_of_beq (isPlain_normalize _) (beq_iff.2 ?_)
  rw [components_normalize, components_normalize,
    components_join base relative' (segments_normalize_ne_nil path) fun none => absurd none marked,
    components_join base relative written fun none => absurd none marked,
    List.foldl_append, List.foldl_append, ← foldl_components_of_relative relative',
    ← foldl_components_of_relative relative, components_normalize, foldl_normalizeStep_foldl]

/-- The name of a file is its last component. -/
theorem fileName?_eq_some {path : Path} {name : String} :
    path.fileName? = some name ↔ path.components.getLast? = some (.named name) := by
  unfold fileName?
  split
  · rename_i last
    rw [last, Option.some.injEq, Option.some.injEq, Component.named.injEq]
  · rename_i unnamed
    constructor
    · nofun
    · intro last
      exact absurd last (unnamed name)

end Path

namespace Include

variable {eligible : PathSet} {isFile : Path → Bool} {excluded : List Path}

/-! ## The first file that ends in a name -/

/-- The file is the first of those that end in a row of components which leads to an ordinary name:
it lies in the fewest folders, and before the others of as many. -/
structure FirstEnding (eligible : PathSet) (tail : List Component) (path : Path) : Prop where
  named : ∃ name, tail.getLast? = some (.named name)
  tracked : path ∈ eligible.toList
  ends : tail <:+ path.components
  least : ∀ other ∈ eligible.toList, tail <:+ other.components →
    path.components.length < other.components.length ∨
      path.components.length = other.components.length ∧ (compare path other).isLE = true

/-- No worse means shorter, or as long and not behind in path order. -/
theorem preference_ne_gt {a b : Path} : preference a b ≠ .gt ↔
    a.components.length < b.components.length ∨
      a.components.length = b.components.length ∧ (compare a b).isLE = true := by
  refine Ordering.isLE_iff_ne_gt.symm.trans ?_
  show ((compare a.components.length b.components.length).then (compare a b)).isLE = true ↔ _
  rcases order : compare a.components.length b.components.length with _ | _ | _
  · rw [Nat.compare_eq_lt] at order
    exact iff_of_true rfl (.inl order)
  · rw [Nat.compare_eq_eq] at order
    show (compare a b).isLE = true ↔ _
    constructor
    · exact fun le => .inr ⟨order, le⟩
    · rintro (less | ⟨-, le⟩)
      · exact absurd order (Nat.ne_of_lt less)
      · exact le
  · rw [Nat.compare_eq_gt] at order
    refine iff_of_false nofun ?_
    rintro (less | ⟨same, -⟩)
    · exact Nat.lt_asymm order less
    · exact Nat.ne_of_lt order same.symm

/-- **The files that are listed under the name of a tail and end in it are all that end in it.** -/
theorem mem_suffixMatches_iff {tail path : Path} {last : String}
    (named : tail.components.getLast? = some (.named last)) :
    path ∈ suffixMatches eligible tail ↔
      path ∈ eligible.toList ∧ tail.components <:+ path.components := by
  rw [mem_suffixMatches]
  refine and_congr_right fun _ => ?_
  rw [Path.endsWith, List.isSuffixOf_iff_suffix]
  constructor
  · rintro ⟨_, -, -, ends⟩
    exact ends
  · intro ends
    obtain ⟨front, whole⟩ := ends
    refine ⟨last, Path.fileName?_eq_some.2 named, Path.fileName?_eq_some.2 ?_, ⟨front, whole⟩⟩
    rw [← whole, List.getLast?_append, named]
    rfl

/-- **The search among the ends of paths finds the first file that ends in the name.** -/
theorem best?_suffixMatches_eq_some (plain : eligible.Plain) {tail path : Path} :
    best? (suffixMatches eligible tail) = some path ↔
      FirstEnding eligible tail.components path := by
  constructor
  · intro found
    obtain ⟨member, least⟩ := mem_of_best? found
    obtain ⟨-, last, named, -⟩ := mem_suffixMatches.1 member
    have named' := Path.fileName?_eq_some.1 named
    obtain ⟨tracked, ends⟩ := (mem_suffixMatches_iff named').1 member
    exact ⟨⟨last, named'⟩, tracked, ends, fun other listed ends' =>
      preference_ne_gt.1 (least other ((mem_suffixMatches_iff named').2 ⟨listed, ends'⟩))⟩
  · intro first
    obtain ⟨last, named⟩ := first.named
    have member := (mem_suffixMatches_iff named).2 ⟨first.tracked, first.ends⟩
    cases found : best? (suffixMatches eligible tail) with
    | none =>
        rw [best?_eq_none.1 found] at member
        exact absurd member List.not_mem_nil
    | some best =>
        -- The best match and the first file are each no worse than the other.
        obtain ⟨member', least⟩ := mem_of_best? found
        obtain ⟨tracked, ends⟩ := (mem_suffixMatches_iff named).1 member'
        rw [eq_of_preference (plain best tracked) (plain path first.tracked) (least path member)
          (preference_ne_gt.2 (first.least best tracked ends))]

/-! ## What a name stands for -/

/-- What a name that is written in a file of the directory stands for. -/
inductive StandsFor (eligible : PathSet) (isFile : Path → Bool) (excluded : List Path)
    (name directory : Path) : Path → Prop
  /-- An absolute name stands for its normal form, be it eligible or just a file, unless an
  exclusion covers it. -/
  | absolute (absolute : name.normalize.isAbsolute = true)
      (known : eligible.contains name.normalize = true ∨ isFile name.normalize = true)
      (uncovered : ∀ cover ∈ excluded, ¬ cover.components <+: name.normalize.components) :
      StandsFor eligible isFile excluded name directory name.normalize
  /-- A relative name stands for what lies there beside the directive. -/
  | beside (relative : name.normalize.isAbsolute = false)
      (tracked : eligible.contains (directory.join name).normalize = true) :
      StandsFor eligible isFile excluded name directory (directory.join name).normalize
  /-- If nothing does, it stands for the first file that ends in it. -/
  | ending {path : Path} (relative : name.normalize.isAbsolute = false)
      (missing : eligible.contains (directory.join name).normalize = false)
      (first : FirstEnding eligible name.normalize.components path) :
      StandsFor eligible isFile excluded name directory path

theorem isCoveredBy_eq_false {path : Path} :
    path.isCoveredBy excluded = false ↔
      ∀ cover ∈ excluded, ¬ cover.components <+: path.components := by
  simp [Path.isCoveredBy, Path.isUnder_iff]

variable {name : String} {directory target : Path}

theorem resolve?_of_absolute (absolute : (Path.ofString name).normalize.isAbsolute = true) :
    resolve? eligible isFile excluded name directory = some target ↔
      StandsFor eligible isFile excluded (.ofString name) directory target := by
  rw [resolve?]
  dsimp only
  rw [if_pos absolute]
  constructor
  · intro found
    split at found
    · rename_i usable
      rw [Bool.and_eq_true, Bool.or_eq_true, Bool.not_eq_true'] at usable
      cases found
      exact .absolute absolute usable.1 (isCoveredBy_eq_false.1 usable.2)
    · cases found
  · intro stands
    cases stands with
    | absolute _ known uncovered =>
        rw [if_pos]
        rw [Bool.and_eq_true, Bool.or_eq_true, Bool.not_eq_true']
        exact ⟨known, isCoveredBy_eq_false.2 uncovered⟩
    | beside relative _ => cases absolute.symm.trans relative
    | ending relative _ _ => cases absolute.symm.trans relative

theorem resolve?_of_relative (plain : eligible.Plain) (rooted : directory.isAbsolute = true)
    (relative : (Path.ofString name).normalize.isAbsolute = false) :
    resolve? eligible isFile excluded name directory = some target ↔
      StandsFor eligible isFile excluded (.ofString name) directory target := by
  have relative' : (Path.ofString name).isAbsolute = false := by
    rwa [Path.isAbsolute_normalize] at relative
  rw [resolve?_relative relative']
  dsimp only
  rw [Path.normalize_join_normalize rooted relative' (Path.segments_ofString_ne_nil name)]
  constructor
  · intro found
    split at found
    · rename_i tracked
      cases found
      exact .beside relative tracked
    · rename_i missing
      rw [Bool.not_eq_true] at missing
      exact .ending relative missing ((best?_suffixMatches_eq_some plain).1 found)
  · intro stands
    cases stands with
    | absolute absolute _ _ => cases relative.symm.trans absolute
    | beside _ tracked => rw [if_pos tracked]
    | ending _ missing first =>
        rw [missing, if_neg Bool.false_ne_true]
        exact (best?_suffixMatches_eq_some plain).2 first

/-- **What an include name is resolved to is what it stands for**, and it is resolved to nothing if
it stands for nothing. -/
theorem resolve_ofProject_eq_some_iff (documents : Documents) (disk : Disk)
    (normal : ∀ path ∈ eligible.toList, path.normalize = path)
    (rooted : directory.isAbsolute = true) :
    (Sources.ofProject eligible documents disk excluded).resolve name directory = some target ↔
      StandsFor eligible disk.isFile excluded (.ofString name) directory target := by
  have plain : eligible.Plain := by
    intro path listed
    rw [← normal path listed]
    exact path.isPlain_normalize
  cases absolute : (Path.ofString name).normalize.isAbsolute with
  | true => exact resolve?_of_absolute absolute
  | false => exact resolve?_of_relative plain rooted absolute

/-- Of two headers of one name that lie equally deep, the one whose folder comes first. -/
theorem standsFor_first_of_two :
    let eligible := PathSet.collect [.ofString "/p/b/defs.svh", .ofString "/p/a/defs.svh",
      .ofString "/p/a/deep/defs.svh"]
    let disk : Disk := ⟨.empty, .ofString "/", 0⟩
    (∀ path ∈ eligible.toList, path.normalize = path) ∧
      (Path.ofString "/p/rtl").isAbsolute = true ∧
      StandsFor eligible disk.isFile [] (.ofString "./defs.svh") (.ofString "/p/rtl")
        (.ofString "/p/a/defs.svh") := by
  intro eligible disk
  have normal : ∀ path ∈ eligible.toList, path.normalize = path := by
    intro path listed
    have spelled : ∀ path ∈ eligible.toList, path.normalize.segments = path.segments := by
      decide +kernel
    exact congrArg Path.mk (spelled path listed)
  exact ⟨normal, by decide, (resolve_ofProject_eq_some_iff .empty disk normal (by decide)).1
    (congrArg some (congrArg Path.mk (by decide +kernel)))⟩

end Include

end SvServer
