import SvServer.Include.Resolve
import SvServer.Proofs.PlainPath

/-!
# What a relative include name stands for

A relative name stands for an eligible file or for nothing. As files come and go, its meaning moves
only if the file that it stood for left, or if the file that it stands for now is new: the
candidates are compared by a fixed order, so among the files that stayed the best one stays best.
-/

namespace SvServer.Include

/-! ## The preferred path -/

/-- The order behind the preference. -/
def preference : Path → Path → Ordering :=
  compareLex (compareOn fun p => p.components.length) compare

instance : Std.TransCmp preference :=
  inferInstanceAs
    (Std.TransCmp (compareLex (compareOn fun p : Path => p.components.length) compare))

theorem prefers_iff {a b : Path} : prefers a b = true ↔ preference a b = .lt := by
  rw [prefers, Ordering.isLT_iff_eq_lt]
  rfl

/-- One more candidate against the best so far. -/
def better (best : Option Path) (candidate : Path) : Option Path :=
  match best with
  | none => some candidate
  | some known => some (if prefers candidate known then candidate else known)

/-- The best of a list and of a path known before: one of them, and no worse than any. -/
theorem foldl_better (candidates : List Path) (known : Path) :
    ∃ best, candidates.foldl better (some known) = some best ∧
      best ∈ known :: candidates ∧ ∀ c ∈ known :: candidates, preference best c ≠ .gt := by
  induction candidates generalizing known with
  | nil =>
      refine ⟨known, rfl, List.mem_cons_self, ?_⟩
      intro c member
      have self : preference known known = .eq := Std.ReflCmp.compare_self
      rw [List.mem_singleton.1 member, self]
      nofun
  | cons first rest ih =>
      rw [List.foldl_cons, better]
      by_cases preferred : prefers first known = true
      · rw [if_pos preferred]
        obtain ⟨best, found, member, least⟩ := ih first
        refine ⟨best, found, List.mem_cons_of_mem _ member, ?_⟩
        intro c member
        rcases List.mem_cons.1 member with rfl | member
        · have below : preference first c = .lt := prefers_iff.1 preferred
          have first_le := least first List.mem_cons_self
          have le := Std.TransCmp.lt_of_isLE_of_lt (Ordering.isLE_iff_ne_gt.2 first_le) below
          rw [le]
          nofun
        · exact least c member
      · rw [if_neg preferred]
        obtain ⟨best, found, member, least⟩ := ih known
        refine ⟨best, found, ?_, ?_⟩
        · rcases List.mem_cons.1 member with rfl | member
          · exact List.mem_cons_self
          · exact List.mem_cons_of_mem _ (List.mem_cons_of_mem _ member)
        · intro c member
          rcases List.mem_cons.1 member with rfl | member
          · exact least _ List.mem_cons_self
          · rcases List.mem_cons.1 member with rfl | member
            · -- The newcomer was not preferred, so what was known is no worse.
              have above : preference known c ≠ .gt := by
                intro gt
                exact preferred (prefers_iff.2 (Std.OrientedCmp.gt_iff_lt.1 gt))
              have known_le := least known List.mem_cons_self
              exact Ordering.isLE_iff_ne_gt.1 (Std.TransCmp.isLE_trans
                (Ordering.isLE_iff_ne_gt.2 known_le) (Ordering.isLE_iff_ne_gt.2 above))
            · exact least c (List.mem_cons_of_mem _ member)

theorem best?_eq (candidates : List Path) : best? candidates = candidates.foldl better none := rfl

theorem best?_eq_none {candidates : List Path} : best? candidates = none ↔ candidates = [] := by
  cases candidates with
  | nil => exact ⟨fun _ => rfl, fun _ => rfl⟩
  | cons first rest =>
      obtain ⟨best, found, -⟩ := foldl_better rest first
      rw [best?_eq, List.foldl_cons, better, found]
      exact ⟨nofun, nofun⟩

/-- **The preferred path is a candidate, and none is preferred to it.** -/
theorem mem_of_best? {candidates : List Path} {best : Path} (h : best? candidates = some best) :
    best ∈ candidates ∧ ∀ c ∈ candidates, preference best c ≠ .gt := by
  cases candidates with
  | nil => exact absurd h nofun
  | cons first rest =>
      obtain ⟨found, eq, member, least⟩ := foldl_better rest first
      rw [best?_eq, List.foldl_cons, better, eq] at h
      rw [← Option.some.inj h]
      exact ⟨member, least⟩

/-- Plain paths that are each no worse than the other are the same. -/
theorem eq_of_preference {a b : Path} (ha : a.IsPlain) (hb : b.IsPlain)
    (hab : preference a b ≠ .gt) (hba : preference b a ≠ .gt) : a = b := by
  have same : preference a b = .eq :=
    Std.OrientedCmp.isLE_antisymm (Ordering.isLE_iff_ne_gt.2 hab) (Ordering.isLE_iff_ne_gt.2 hba)
  rw [preference, compareLex, Ordering.then_eq_eq] at same
  exact ha.eq_of_beq hb (Path.beq_iff.2 (Path.compare_eq_iff.1 same.2))

/-! ## Relative names -/

variable {eligible eligible' : PathSet} {isFile isFile' : Path → Bool} {excluded : List Path}
variable {name : String} {directory : Path}

theorem mem_suffixMatches {relative path : Path} :
    path ∈ suffixMatches eligible relative ↔ path ∈ eligible.toList ∧
      ∃ last, relative.fileName? = some last ∧
        path.fileName? = some last ∧ path.endsWith relative = true := by
  rw [suffixMatches]
  cases relative.fileName? with
  | none => simp
  | some last => simp

/-- How a relative name resolves. -/
theorem resolve?_relative (relative : (Path.ofString name).isAbsolute = false) :
    resolve? eligible isFile excluded name directory =
      let written := (Path.ofString name).normalize
      let direct := (directory.join written).normalize
      if eligible.contains direct then some direct
      else best? (suffixMatches eligible written) := by
  rw [resolve?, Path.isAbsolute_normalize, relative]
  rfl

/-- **A relative name stands for an eligible file**, in the spelling in which it is listed. -/
theorem mem_of_resolve? (plain : eligible.Plain)
    (relative : (Path.ofString name).isAbsolute = false) {target : Path}
    (h : resolve? eligible isFile excluded name directory = some target) :
    target ∈ eligible.toList := by
  rw [resolve?_relative relative] at h
  dsimp only at h
  split at h
  · rename_i present
    rw [← Option.some.inj h]
    exact plain.mem_toList (Path.isPlain_normalize _) present
  · exact (mem_suffixMatches.1 (mem_of_best? h).1).1

/-- **What a name stands for** is an eligible file, or lies beneath no exclusion. -/
theorem eligible_or_uncovered_of_resolve? {target : Path}
    (h : resolve? eligible isFile excluded name directory = some target) :
    eligible.contains target = true ∨ target.isCoveredBy excluded = false := by
  rw [resolve?] at h
  dsimp only at h
  split at h
  · split at h
    · rename_i usable
      rw [Bool.and_eq_true, Bool.not_eq_true'] at usable
      rw [← Option.some.inj h]
      exact .inr usable.2
    · exact absurd h nofun
  · split at h
    · rename_i present
      rw [← Option.some.inj h]
      exact .inl present
    · have listed := (mem_suffixMatches.1 (mem_of_best? h).1).1
      exact .inl (PathSet.contains_of_mem_toList listed)

/-- **A name without dots stands for a file that ends in it**, whether it is absolute or relative. -/
theorem endsWith_of_resolve? (direct : Path.IsDirect (Path.ofString name).components)
    {target : Path} (h : resolve? eligible isFile excluded name directory = some target) :
    target.endsWith (Path.ofString name) = true := by
  have same := Path.components_normalize_of_isDirect direct
  rw [Path.endsWith, List.isSuffixOf_iff_suffix, ← same]
  rw [← same] at direct
  rw [resolve?] at h
  dsimp only at h
  split at h
  · split at h
    · obtain rfl := Option.some.inj h
      exact List.suffix_refl _
    · exact absurd h nofun
  · rename_i relative
    rw [Bool.not_eq_true] at relative
    split at h
    · rw [← Option.some.inj h]
      exact Path.suffix_components_normalize direct
        (Path.suffix_components_join directory relative direct)
    · obtain ⟨-, -, -, -, ends⟩ := mem_suffixMatches.1 (mem_of_best? h).1
      rwa [Path.endsWith, List.isSuffixOf_iff_suffix] at ends

/-- A plain match stays one as long as the file is there. -/
theorem mem_suffixMatches_of_contains (plain' : eligible'.Plain) {relative path : Path}
    (isPlain : path.IsPlain) (member : path ∈ suffixMatches eligible relative)
    (present : eligible'.contains path = true) : path ∈ suffixMatches eligible' relative := by
  obtain ⟨-, last⟩ := mem_suffixMatches.1 member
  exact mem_suffixMatches.2 ⟨plain'.mem_toList isPlain present, last⟩

/-- The best match moves only with the files that are best. -/
theorem best?_suffixMatches_stable (plain : eligible.Plain) (plain' : eligible'.Plain)
    {relative : Path}
    (stayed : ∀ target, best? (suffixMatches eligible relative) = some target →
      eligible'.contains target = true)
    (known : ∀ target, best? (suffixMatches eligible' relative) = some target →
      eligible.contains target = true) :
    best? (suffixMatches eligible' relative) = best? (suffixMatches eligible relative) := by
  cases old : best? (suffixMatches eligible relative) with
  | none =>
      cases new : best? (suffixMatches eligible' relative) with
      | none => rfl
      | some target =>
          -- A target that was there before would have matched before.
          have member := (mem_of_best? new).1
          have there := mem_suffixMatches_of_contains plain
            (plain' target (mem_suffixMatches.1 member).1) member (known target new)
          rw [best?_eq_none.1 old] at there
          exact absurd there List.not_mem_nil
  | some target =>
      have member := (mem_of_best? old).1
      have isPlain := plain target (mem_suffixMatches.1 member).1
      have here := mem_suffixMatches_of_contains plain' isPlain member (stayed target old)
      cases new : best? (suffixMatches eligible' relative) with
      | none =>
          rw [best?_eq_none.1 new] at here
          exact absurd here List.not_mem_nil
      | some target' =>
          -- Each of the two was a candidate beside the other, so neither is preferred.
          have member' := (mem_of_best? new).1
          have isPlain' := plain' target' (mem_suffixMatches.1 member').1
          have there := mem_suffixMatches_of_contains plain isPlain' member' (known target' new)
          congr 1
          exact eq_of_preference isPlain' isPlain ((mem_of_best? new).2 target here)
            ((mem_of_best? old).2 target' there)

/-- **What a relative name stands for moves only with the files it names.** If what it stood for
stayed, and what it stands for now was there before, they are the same. -/
theorem resolve?_stable (plain : eligible.Plain) (plain' : eligible'.Plain)
    (relative : (Path.ofString name).isAbsolute = false)
    (stayed : ∀ target, resolve? eligible isFile excluded name directory = some target →
      eligible'.contains target = true)
    (known : ∀ target, resolve? eligible' isFile' excluded name directory = some target →
      eligible.contains target = true) :
    resolve? eligible' isFile' excluded name directory =
      resolve? eligible isFile excluded name directory := by
  rw [resolve?_relative relative] at stayed known ⊢
  rw [resolve?_relative relative]
  dsimp only at stayed known ⊢
  generalize (Path.ofString name).normalize = written at stayed known ⊢
  generalize (directory.join written).normalize = direct at stayed known ⊢
  by_cases before : eligible.contains direct = true
  · -- The file beside the directive was there, and stayed.
    rw [if_pos before] at stayed ⊢
    rw [if_pos (stayed direct rfl)]
  · by_cases now : eligible'.contains direct = true
    · rw [if_pos now] at known
      exact absurd (known direct rfl) before
    · rw [if_neg before] at stayed ⊢
      rw [if_neg now] at known ⊢
      exact best?_suffixMatches_stable plain plain' stayed known

end SvServer.Include
