import SvServer.Proofs.Project.Refusals
import SvServer.Proofs.Project.Stored

/-!
# What an inclusion lifts

Including a path takes away the exclusions at and beneath it, and splits one of those above it. What
the split excludes lies beside the way to the path, so no other file changes sides. But only one
exclusion is split: where two of them lie above the path, as a settings file may have it, the path
stays excluded.

An inclusion fails half way when a folder on the way down cannot be listed. By then the exclusion that
was to be split is gone.
-/

namespace SvServer.RootFiles

variable {set after : RootFiles} {disk : Disk} {path above other : Path}

/-! ## Exclusions lead somewhere -/

/-- No exclusion is the empty path. -/
def LeadingExclusions (set : RootFiles) : Prop := ∀ path ∈ set.excluded.toList, path.components ≠ []

/-- What a split adds leads somewhere, and so does every path that exists. -/
theorem kept_leadingExclusions (named : disk.isWellNamed = true) : Kept disk LeadingExclusions :=
  kept_exclusions
    { found := fun _ normal there => Disk.components_ne_nil_of_pathExists normal there
      beside := fun _ _ _ _ _ beside => beside.components_ne_nil named }

theorem Reached.normalExclusions (h : set.Reached) : set.NormalExclusions :=
  h.of_kept (fun _ named => kept_normalExclusions named) fun _ kept => kept

theorem Reached.leadingExclusions (h : set.Reached) : set.LeadingExclusions :=
  h.of_kept (fun _ named => kept_leadingExclusions named) fun _ kept => kept

/-! ## What is left of the exclusions -/

/-- Whether a path lies strictly beneath two exclusions. -/
def IsExcludedTwice (set : RootFiles) (path : Path) : Prop :=
  ∃ above other, set.IsExcludedBy path above ∧ set.IsExcludedBy path other ∧
    (above == other) = false

/-- The exclusions that do not lie at or beneath a path. -/
def outside (set : RootFiles) (path : Path) : PathSet :=
  set.excluded.filter fun other => !other.isUnder path

theorem contains_outside : (set.outside path).contains other =
    (set.excluded.contains other && !other.isUnder path) :=
  PathSet.contains_filter set.excluded _ (fun _ _ same => by rw [Path.isUnder_congr same]) other

/-- The exclusions with the one above a path split. -/
def splitAbove (set : RootFiles) (disk : Disk) (above path : Path) : PathSet × Option Path :=
  excludeBeside disk above (path.components.drop above.components.length)
    ((set.outside path).erase above)

/-- **What including a valid path does**: the root is walked under the exclusions that are left, once
the one above the path was split; or the split fails, and there is no walk. -/
theorem includePath_of_valid (valid : set.validPath disk path = .ok path.normalize) :
    set.includePath disk path =
      match set.exclusionAbove? path.normalize with
      | none =>
          let narrower : RootFiles := { set with excluded := set.outside path.normalize }
          ((narrower.discover disk).1, .ok (narrower.discover disk).2)
      | some above =>
          let split : RootFiles :=
            { set with excluded := (set.splitAbove disk above path.normalize).1 }
          match (set.splitAbove disk above path.normalize).2 with
          | some folder => (split, .error (.fileSystem folder))
          | none => ((split.discover disk).1, .ok (split.discover disk).2) := by
  rw [includePath, valid]
  rfl

/-- The row of components that leads from the exclusion above a path to that path. -/
structure Leads (set : RootFiles) (path above : Path) (way : List Component) : Prop where
  whole : above.components ++ way = path.components
  form : Path.NormalForm (above.components ++ way)
  normal : above.normalize = above
  nonempty : above.components ≠ []
  split : ∀ disk, set.splitAbove disk above path =
    excludeBeside disk above way ((set.outside path).erase above)

theorem Reached.exists_leads (h : set.Reached) (normal : path.normalize = path)
    (found : set.exclusionAbove? path = some above) : ∃ way, set.Leads path above way := by
  obtain ⟨listed, -⟩ := isExcludedBy_of_exclusionAbove? found
  obtain ⟨way, whole, form, down⟩ := exists_way_of_exclusionAbove? normal found
  exact ⟨way, whole, form, h.normalExclusions above listed, h.leadingExclusions above listed,
    fun disk => by rw [splitAbove, down]⟩

/-- What is excluded once the exclusion above a path was split. -/
theorem contains_splitAbove {way : List Component} (leads : set.Leads path above way)
    (succeeded : (set.splitAbove disk above path).2 = none) :
    (set.splitAbove disk above path).1.contains other = true ↔
      (set.excluded.contains other = true ∧ other.isUnder path = false ∧ (above == other) = false) ∨
        ∃ entry, Beside disk above way entry ∧ (other == entry) = true := by
  rw [leads.split] at succeeded ⊢
  rw [contains_excludeBeside_iff succeeded, PathSet.contains_erase, contains_outside]
  simp only [Bool.and_eq_true, Bool.not_eq_true']
  constructor
  · exact Or.imp_left fun ⟨different, member, aside⟩ => ⟨member, aside, different⟩
  · exact Or.imp_left fun ⟨member, aside, different⟩ => ⟨different, member, aside⟩

/-- A file beneath the exclusion that was split lies beside the way, unless it lies at or beneath its
end. -/
theorem Leads.exists_beside {way : List Component} (leads : set.Leads path above way)
    (normal : path.normalize = path) (there : disk.pathExists path = true)
    (succeeded : (set.splitAbove disk above path).2 = none) {file : Path}
    (normalFile : file.normalize = file) (isFile : disk.isFile file = true)
    (below : file.IsBelow above) (aside : file.isUnder path = false) :
    ∃ entry, Beside disk above way entry ∧ file.isUnder entry = true := by
  rw [leads.split] at succeeded
  have ends : disk.pathExists (.ofComponents (above.components ++ way)) = true := by
    rwa [leads.whole, Path.ofComponents_components normal]
  have apart : ¬above.components ++ way <+: file.components := by
    rw [leads.whole]
    intro beneath
    rw [Path.isUnder_iff.2 beneath] at aside
    cases aside
  exact RootFiles.exists_beside leads.form leads.normal leads.nonempty ends ⟨_, succeeded⟩
    normalFile isFile below apart

/-! ## What an inclusion comes to -/

/-- How the exclusions come out of an accepted inclusion. -/
structure Lifts (set : RootFiles) (disk : Disk) (path : Path) (after : RootFiles) : Prop where
  there : disk.pathExists path = true
  lifted : (set.exclusionAbove? path = none ∧ after.excluded = set.outside path) ∨
    ∃ above, set.exclusionAbove? path = some above ∧ (set.splitAbove disk above path).2 = none ∧
      after.excluded = (set.splitAbove disk above path).1

theorem lifts_of_accepted {delta : FileChanges}
    (accepted : set.includePath disk path = (after, .ok delta)) :
    set.Lifts disk path.normalize after := by
  cases known : set.validPath disk path with
  | error error =>
      rw [includePath, known] at accepted
      cases accepted
  | ok valid =>
      obtain rfl := eq_normalize_of_validPath known
      refine ⟨pathExists_of_validPath known, ?_⟩
      rw [includePath_of_valid known] at accepted
      split at accepted
      · rename_i free
        rw [← (Prod.mk.inj accepted).1]
        exact .inl ⟨free, rfl⟩
      · rename_i above found
        dsimp only at accepted
        split at accepted
        · cases accepted
        · rename_i succeeded
          rw [← (Prod.mk.inj accepted).1]
          exact .inr ⟨above, found, succeeded, rfl⟩

/-- An exclusion that covers a file beneath a path, but does not itself lie there, lies above the
path. -/
theorem isExcludedBy_of_covers {file : Path} (member : set.excluded.contains other = true)
    (aside : other.isUnder path = false) (beneath : file.isUnder path = true)
    (covers : file.isUnder other = true) : set.IsExcludedBy path other := by
  rcases Path.isUnder_or_isUnder covers beneath with below | higher
  · rw [aside] at below
    cases below
  · refine ⟨member, higher, ?_⟩
    rw [Bool.eq_false_iff]
    intro same
    rw [Path.isUnder_congr same, Path.isUnder_self] at aside
    cases aside

/-- **At and beneath an included path, files stay excluded only where two exclusions lay above
it.** -/
theorem Lifts.isExcluded_iff (lifts : set.Lifts disk path after) (h : set.Reached)
    (named : disk.isWellNamed = true) (normal : path.normalize = path) {file : Path}
    (beneath : file.isUnder path = true) :
    after.isExcluded file = true ↔ set.IsExcludedTwice path := by
  rw [RootFiles.isExcluded_iff]
  rcases lifts.lifted with ⟨free, left⟩ | ⟨above, found, succeeded, left⟩
  · -- Nothing lies above the path, and what lay beneath it is gone.
    rw [left]
    refine iff_of_false ?_ fun ⟨_, _, one, _⟩ => not_isExcludedBy_of_exclusionAbove? free one
    rintro ⟨other, member, covers⟩
    rw [contains_outside, Bool.and_eq_true, Bool.not_eq_true'] at member
    exact not_isExcludedBy_of_exclusionAbove? free
      (isExcludedBy_of_covers member.1 member.2 beneath covers)
  · obtain ⟨way, leads⟩ := h.exists_leads normal found
    obtain ⟨-, split⟩ := isExcludedBy_of_exclusionAbove? found
    rw [left]
    constructor
    · rintro ⟨other, member, covers⟩
      rcases (contains_splitAbove leads succeeded).1 member with
        ⟨kept, aside, different⟩ | ⟨entry, beside, same⟩
      · exact ⟨above, other, split, isExcludedBy_of_covers kept aside beneath covers, different⟩
      · have ends : above.components ++ way <+: file.components := by
          rw [leads.whole]
          exact Path.isUnder_iff.1 beneath
        have apart := beside.not_prefix named leads.form ends
        rw [Path.isUnder, ← Path.beq_iff.1 same, ← Path.isUnder, covers] at apart
        cases apart
    · rintro ⟨one, two, ofOne, ofTwo, different⟩
      -- Of two exclusions, one is not the one that was split.
      have remains : ∀ {other : Path}, set.IsExcludedBy path other → (above == other) = false →
          ∃ other, (set.splitAbove disk above path).1.contains other = true ∧
            file.isUnder other = true := fun {other} excluded apart =>
        ⟨other, (contains_splitAbove leads succeeded).2
          (.inl ⟨excluded.member, excluded.not_isUnder, apart⟩),
          Path.isUnder_trans beneath excluded.beneath⟩
      cases same : above == one with
      | false => exact remains ofOne same
      | true => exact remains ofTwo (by rwa [BEq.congr_left same])

/-- **No other file changes sides**, as long as it is there. -/
theorem Lifts.isExcluded_eq (lifts : set.Lifts disk path after) (h : set.Reached)
    (normal : path.normalize = path) {file : Path} (normalFile : file.normalize = file)
    (below : file.IsBelow set.root) (isFile : disk.isFile file = true)
    (aside : file.isUnder path = false) : after.isExcluded file = set.isExcluded file := by
  -- What covers the file does not lie at or beneath the path.
  have outer : ∀ {other : Path}, file.isUnder other = true → other.isUnder path = false := by
    intro other covers
    rw [Bool.eq_false_iff]
    intro inner
    rw [Path.isUnder_trans covers inner] at aside
    cases aside
  rw [Bool.eq_iff_iff, RootFiles.isExcluded_iff, RootFiles.isExcluded_iff]
  rcases lifts.lifted with ⟨free, left⟩ | ⟨above, found, succeeded, left⟩
  · rw [left]
    simp only [contains_outside, Bool.and_eq_true, Bool.not_eq_true']
    exact ⟨fun ⟨other, member, covers⟩ => ⟨other, member.1, covers⟩,
      fun ⟨other, member, covers⟩ => ⟨other, ⟨member, outer covers⟩, covers⟩⟩
  · obtain ⟨way, leads⟩ := h.exists_leads normal found
    obtain ⟨-, split⟩ := isExcludedBy_of_exclusionAbove? found
    rw [left]
    constructor
    · rintro ⟨other, member, covers⟩
      rcases (contains_splitAbove leads succeeded).1 member with
        ⟨kept, -, -⟩ | ⟨entry, beside, same⟩
      · exact ⟨other, kept, covers⟩
      · refine ⟨above, split.member, Path.isUnder_trans covers ?_⟩
        rw [Path.isUnder_congr same]
        exact beside.isUnder
    · rintro ⟨other, member, covers⟩
      cases same : above == other with
      | false =>
          exact ⟨other, (contains_splitAbove leads succeeded).2
            (.inl ⟨member, outer covers, same⟩), covers⟩
      | true =>
          -- The exclusion was split, and the file lies beside the way.
          rw [Path.isUnder, ← Path.beq_iff.1 same, ← Path.isUnder] at covers
          have lies := below.of_isUnder (h.rooted.excluded above split.member) covers
          obtain ⟨entry, beside, beneath⟩ :=
            leads.exists_beside normal lifts.there succeeded normalFile isFile lies aside
          exact ⟨entry, (contains_splitAbove leads succeeded).2 (.inr ⟨entry, beside, BEq.rfl⟩),
            beneath⟩

/-- **What an inclusion includes**: the path and all beneath it, unless two exclusions lay above it;
and nothing else, as far as there are files. -/
theorem isExcluded_includePath (h : set.Reached) (named : disk.isWellNamed = true)
    {delta : FileChanges} (accepted : set.includePath disk path = (after, .ok delta)) :
    (∀ file : Path, file.isUnder path.normalize = true →
      (after.isExcluded file = true ↔ set.IsExcludedTwice path.normalize)) ∧
    ∀ file : Path, file.normalize = file → file.IsBelow set.root → disk.isFile file = true →
      file.isUnder path.normalize = false → after.isExcluded file = set.isExcluded file := by
  have lifts := lifts_of_accepted accepted
  have normal := path.normalize_normalize
  exact ⟨fun file => lifts.isExcluded_iff h named normal,
    fun file normalFile below isFile => lifts.isExcluded_eq h normal normalFile below isFile⟩

/-- A disk with a project whose test benches lie in one folder, some of them further down. -/
def benchDisk (readable : Bool) : Disk where
  top := .folder "p" true (.folder "tb" readable
    (.file "a.sv" ⟨some "module a;\nendmodule\n", 20, 0⟩
      (.folder "deep" true (.file "c.sv" ⟨some "module c;\nendmodule\n", 20, 0⟩
        (.file "d.sv" ⟨some "module d;\nendmodule\n", 20, 0⟩ .empty)) .empty)) .empty) .empty
  current := .ofString "/"
  now := 1

/-- The files of the project under exclusions as its settings list them. -/
def benchFiles (entries : List String) : RootFiles :=
  (ofRoot (.ofString "/p") ⟨100, 100⟩).setExclusions (benchDisk true) (.ofString "/p") entries

theorem reached_benchFiles (entries : List String) : (benchFiles entries).Reached :=
  .setExclusions rfl _ _ (.ofRoot _ _)

/-- One test bench is included, while both folders above it are excluded. -/
def benchIncluded : RootFiles × Except ProjectError FileChanges :=
  (benchFiles ["tb", "tb/deep"]).includePath (benchDisk true) (.ofString "/p/tb/deep/c.sv")

theorem exists_accepted_benchIncluded : ∃ delta,
    (benchFiles ["tb", "tb/deep"]).includePath (benchDisk true) (.ofString "/p/tb/deep/c.sv") =
      (benchIncluded.1, .ok delta) := by
  have accepted : benchIncluded.2.toOption.isSome = true := by decide +kernel
  cases outcome : benchIncluded.2 with
  | error error => rw [outcome] at accepted; cases accepted
  | ok delta => exact ⟨delta, Prod.ext rfl outcome⟩

/-- What that inclusion includes. -/
theorem isExcluded_benchIncluded : (benchFiles ["tb", "tb/deep"]).Reached ∧
    (benchDisk true).isWellNamed = true ∧ (∃ delta,
      (benchFiles ["tb", "tb/deep"]).includePath (benchDisk true) (.ofString "/p/tb/deep/c.sv") =
        (benchIncluded.1, .ok delta)) ∧
    (∀ file : Path, file.isUnder (Path.ofString "/p/tb/deep/c.sv").normalize = true →
      (benchIncluded.1.isExcluded file = true ↔ (benchFiles ["tb", "tb/deep"]).IsExcludedTwice
        (Path.ofString "/p/tb/deep/c.sv").normalize)) ∧
    ∀ file : Path, file.normalize = file → file.IsBelow (benchFiles ["tb", "tb/deep"]).root →
      (benchDisk true).isFile file = true →
      file.isUnder (Path.ofString "/p/tb/deep/c.sv").normalize = false →
        benchIncluded.1.isExcluded file = (benchFiles ["tb", "tb/deep"]).isExcluded file := by
  obtain ⟨delta, accepted⟩ := exists_accepted_benchIncluded
  exact ⟨reached_benchFiles _, by decide +kernel, ⟨delta, accepted⟩,
    isExcluded_includePath (reached_benchFiles _) (by decide +kernel) accepted⟩

/-- **The test bench stays excluded**: only the outer folder was split. -/
theorem isExcluded_of_nested_exclusions : (benchFiles ["tb", "tb/deep"]).Reached ∧
    (∃ delta, (benchFiles ["tb", "tb/deep"]).includePath (benchDisk true)
      (.ofString "/p/tb/deep/c.sv") = (benchIncluded.1, .ok delta)) ∧
    benchIncluded.1.isExcluded (.ofString "/p/tb/deep/c.sv") = true :=
  ⟨reached_benchFiles _, exists_accepted_benchIncluded, by decide +kernel⟩

/-! ## Inclusions that fail -/

theorem refusesPath_of_validPath {error : ProjectError}
    (refused : set.validPath disk path = .error error) : error.refusesPath = true := by
  rw [validPath] at refused
  split at refused
  · rw [← Except.error.inj refused]
    rfl
  · split at refused
    · rw [← Except.error.inj refused]
      rfl
    · cases refused

/-- An inclusion fails before it touches anything, or while it splits. -/
theorem includePath_error_cases {error : ProjectError}
    (failed : set.includePath disk path = (after, .error error)) :
    error.refusesPath = true ∧ after = set ∨
    error.refusesPath = false ∧ ∃ above, set.exclusionAbove? path.normalize = some above ∧
      after = { set with excluded := (set.splitAbove disk above path.normalize).1 } := by
  cases known : set.validPath disk path with
  | error other =>
      rw [includePath, known] at failed
      obtain ⟨rfl, same⟩ := Prod.mk.inj failed
      rw [← Except.error.inj same]
      exact .inl ⟨refusesPath_of_validPath known, rfl⟩
  | ok valid =>
      obtain rfl := eq_normalize_of_validPath known
      rw [includePath_of_valid known] at failed
      split at failed
      · cases (Prod.mk.inj failed).2
      · rename_i above found
        dsimp only at failed
        split at failed
        · obtain ⟨rfl, same⟩ := Prod.mk.inj failed
          rw [← Except.error.inj same]
          exact .inr ⟨rfl, above, found, rfl⟩
        · cases (Prod.mk.inj failed).2

/-- The exclusion that is split is gone, however far the split gets. -/
theorem contains_splitAbove_self {way : List Component} (leads : set.Leads path above way)
    (named : disk.isWellNamed = true) :
    (set.splitAbove disk above path).1.contains above = false := by
  rw [Bool.eq_false_iff, leads.split]
  intro member
  obtain ⟨held, listed, same⟩ := PathSet.exists_mem_toList member
  rcases mem_excludeBeside listed with before | beside
  · have erased := PathSet.contains_of_mem_toList before
    rw [PathSet.contains_erase, same] at erased
    cases erased
  · have apart := beside.ne_folder named leads.form
    rw [BEq.comm, same] at apart
    cases apart

/-- **What a failed inclusion leaves**: the files always; and the exclusions too, exactly if the path
was refused. Otherwise a folder could not be listed, and an exclusion above the path is gone. -/
theorem includePath_of_error (h : set.Reached) (named : disk.isWellNamed = true)
    {error : ProjectError} (failed : set.includePath disk path = (after, .error error)) :
    after.files = set.files ∧ (after = set ↔ error.refusesPath = true) ∧
    (error.refusesPath = false → ∃ above, set.IsExcludedBy path.normalize above ∧
      after.excluded.contains above = false) := by
  rcases includePath_error_cases failed with ⟨forPath, rfl⟩ | ⟨unlisted, above, found, rfl⟩
  · refine ⟨rfl, iff_of_true rfl forPath, fun unlisted => ?_⟩
    rw [forPath] at unlisted
    cases unlisted
  · obtain ⟨way, leads⟩ := h.exists_leads path.normalize_normalize found
    obtain ⟨-, excluded⟩ := isExcludedBy_of_exclusionAbove? found
    have gone := contains_splitAbove_self leads named
    refine ⟨rfl, iff_of_false (fun same => ?_) ?_, fun _ => ⟨above, excluded, gone⟩⟩
    · have kept : (set.splitAbove disk above path.normalize).1 = set.excluded :=
        congrArg RootFiles.excluded same
      rw [kept, excluded.member] at gone
      cases gone
    · rw [unlisted]
      exact Bool.false_ne_true

/-- The same folder is to be split when it cannot be listed any more. -/
def benchUnlisted : RootFiles × Except ProjectError FileChanges :=
  (benchFiles ["tb"]).includePath (benchDisk false) (.ofString "/p/tb/a.sv")

theorem exists_failed_benchUnlisted : ∃ error,
    (benchFiles ["tb"]).includePath (benchDisk false) (.ofString "/p/tb/a.sv") =
      (benchUnlisted.1, .error error) := by
  have failed : benchUnlisted.2.toOption.isSome = false := by decide +kernel
  cases outcome : benchUnlisted.2 with
  | error error => exact ⟨error, Prod.ext rfl outcome⟩
  | ok delta => rw [outcome] at failed; cases failed

/-- What the failed inclusion leaves. -/
theorem leaves_benchUnlisted : (benchFiles ["tb"]).Reached ∧
    (benchDisk false).isWellNamed = true ∧ ∃ error,
      (benchFiles ["tb"]).includePath (benchDisk false) (.ofString "/p/tb/a.sv") =
        (benchUnlisted.1, .error error) ∧
      benchUnlisted.1.files = (benchFiles ["tb"]).files ∧
      (benchUnlisted.1 = benchFiles ["tb"] ↔ error.refusesPath = true) ∧
      (error.refusesPath = false → ∃ above,
        (benchFiles ["tb"]).IsExcludedBy (Path.ofString "/p/tb/a.sv").normalize above ∧
          benchUnlisted.1.excluded.contains above = false) := by
  obtain ⟨error, failed⟩ := exists_failed_benchUnlisted
  exact ⟨reached_benchFiles _, by decide +kernel, error, failed,
    includePath_of_error (reached_benchFiles _) (by decide +kernel) failed⟩

/-- **The inclusion fails, and the test bench is no longer excluded.** -/
theorem not_isExcluded_of_failed : (benchFiles ["tb"]).Reached ∧
    (∃ error, (benchFiles ["tb"]).includePath (benchDisk false) (.ofString "/p/tb/a.sv") =
      (benchUnlisted.1, .error error)) ∧
    (benchFiles ["tb"]).isExcluded (.ofString "/p/tb/a.sv") = true ∧
    benchUnlisted.1.isExcluded (.ofString "/p/tb/a.sv") = false :=
  ⟨reached_benchFiles _, exists_failed_benchUnlisted, by decide +kernel, by decide +kernel⟩

end SvServer.RootFiles
