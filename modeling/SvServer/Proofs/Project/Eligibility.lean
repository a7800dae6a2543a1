import Mathlib.Data.List.Nodup
import Mathlib.Data.List.Perm.Subperm
import SvServer.Proofs.Disk
import SvServer.Proofs.Project.Walks

/-!
# Which files a walk finds

Which entries are on the row of a walk can be said without the walk: names lead to them of which none
begins with a dot, through folders of which none is at or beneath an exclusion. A walk reports a
limit where it has not seen all of them, or has had to leave out a hardware file among them. Where it
reports none, it has found exactly the hardware files among them, in whatever order the folders list
their entries.
-/

namespace SvServer

/-! ## Trees that can be read -/

namespace Folder

/-- Whether all folders in the folder can be listed, and none lists a name twice. -/
def isListable : Folder → Bool
  | empty => true
  | file name _ rest => !rest.names.contains name && rest.isListable
  | folder name readable inside rest =>
    !rest.names.contains name && (readable && inside.isListable) && rest.isListable

end Folder

namespace DiskEntry

@[inherit_doc Folder.isListable]
def isListable : DiskEntry → Bool
  | file _ => true
  | folder readable inside => readable && inside.isListable

/-- Whether the entry is a file. -/
def isFile : DiskEntry → Bool
  | file _ => true
  | folder _ _ => false

/-- On a well-named disk, names that lead somewhere are ordinary. -/
theorem isOrdinaryName_of_descend {top entry : DiskEntry} (named : top.isWellNamed = true)
    {names : List String} (leads : top.descend names = some entry) :
    ∀ name ∈ names, isOrdinaryName name = true := by
  induction names generalizing top with
  | nil => exact nofun
  | cons first more ih =>
      cases top with
      | file contents => cases leads
      | folder readable inside =>
          obtain ⟨next, found, leads⟩ := Option.bind_eq_some_iff.1 leads
          obtain ⟨ordinary, named⟩ := Folder.find?_of_isWellNamed named found
          intro name listed
          rcases List.mem_cons.1 listed with rfl | listed
          · exact ordinary
          · exact ih named leads name listed

end DiskEntry

namespace Folder

/-- A folder that lists a name in front of others, but not among them. -/
theorem isListable_cons {name : String} {entry : DiskEntry} {rest : Folder}
    (listable : (cons name entry rest).isListable = true) :
    name ∉ rest.names ∧ entry.isListable = true ∧ rest.isListable = true := by
  cases entry with
  | file contents =>
      simp only [cons, isListable, Bool.and_eq_true, Bool.not_eq_true'] at listable
      exact ⟨by simpa using listable.1, rfl, listable.2⟩
  | folder readable inside =>
      simp only [cons, isListable, Bool.and_eq_true, Bool.not_eq_true'] at listable
      obtain ⟨⟨fresh, inside⟩, rest⟩ := listable
      exact ⟨by simpa using fresh, by rw [DiskEntry.isListable, inside.1, inside.2]; rfl, rest⟩

/-- Folders are built up entry by entry. -/
theorem cons_induction {holds : Folder → Prop} (empty : holds empty)
    (cons : ∀ name entry rest, holds rest → holds (cons name entry rest)) (folder : Folder) :
    holds folder := by
  induction folder with
  | empty => exact empty
  | file name contents rest ih => exact cons name (.file contents) rest ih
  | folder name readable inside rest _ ih => exact cons name (.folder readable inside) rest ih

theorem find?_of_isListable {folder : Folder} (listable : folder.isListable = true) {name : String}
    {entry : DiskEntry} (found : folder.find? name = some entry) : entry.isListable = true := by
  induction folder using cons_induction with
  | empty => cases found
  | cons first other rest ih =>
      obtain ⟨-, here, later⟩ := isListable_cons listable
      rw [find?_cons] at found
      split at found
      · rw [← Option.some.inj found]
        exact here
      · exact ih later found

/-- What a folder shows is what its entries show. -/
theorem mem_sights_iff {folder : Folder} (listable : folder.isListable = true)
    {excluded : List Path} {path : Path} {sight : Sight} :
    sight ∈ folder.sights excluded path ↔ ∃ name entry, folder.find? name = some entry ∧
      isHidden name = false ∧
        ∃ below ∈ entry.sights excluded (path.child name), below.inside name = sight := by
  induction folder using cons_induction with
  | empty => exact iff_of_false nofun nofun
  | cons first other rest ih =>
      obtain ⟨fresh, -, later⟩ := isListable_cons listable
      rw [sights_cons, List.mem_append, ih later]
      constructor
      · rintro (here | ⟨name, entry, found, shown⟩)
        · cases hidden : isHidden first with
          | true => rw [hidden] at here; exact absurd here List.not_mem_nil
          | false =>
              rw [hidden] at here
              obtain ⟨below, listed, same⟩ := List.mem_map.1 here
              exact ⟨first, other, by rw [find?_cons, if_pos rfl], hidden, below, listed, same⟩
        · have apart : first ≠ name := by
            rintro rfl
            exact fresh (mem_names_iff.2 (by rw [found]; rfl))
          exact ⟨name, entry, by rw [find?_cons, if_neg apart, found], shown⟩
      · rintro ⟨name, entry, found, visible, below, listed, same⟩
        rw [find?_cons] at found
        split at found
        · rename_i here
          subst here
          rw [← Option.some.inj found] at listed
          rw [visible]
          exact .inl (List.mem_map.2 ⟨below, listed, same⟩)
        · exact .inr ⟨name, entry, found, visible, below, listed, same⟩

theorem exists_name_of_mem_sights {folder : Folder} (listable : folder.isListable = true)
    {excluded : List Path} {path : Path} {sight : Sight}
    (listed : sight ∈ folder.sights excluded path) :
    ∃ name ∈ folder.names, ∃ more, sight.names = name :: more := by
  obtain ⟨name, entry, found, -, below, -, rfl⟩ := (mem_sights_iff listable).1 listed
  exact ⟨name, mem_names_iff.2 (by rw [found]; rfl), below.names, rfl⟩

end Folder

/-! ## What is on the row -/

section Sights

variable {excluded : List Path} {root : Path} {top entry : DiskEntry} {names : List String}

/-- What names lead to, if a walk that nothing stops comes by it. -/
structure InSight (excluded : List Path) (root : Path) (top : DiskEntry) (names : List String)
    (entry : DiskEntry) : Prop where
  leads : top.descend names = some entry
  visible : ∀ name ∈ names, isHidden name = false
  uncovered : ∀ front, front <+: names → ∀ readable inside,
    top.descend front = some (.folder readable inside) →
      (root.down front).isCoveredBy excluded = false

/-- The entry that a walk starts at. -/
theorem inSight_nil_iff : InSight excluded root top [] entry ↔
    top = entry ∧ (top.isFile = false → root.isCoveredBy excluded = false) := by
  constructor
  · rintro ⟨leads, -, uncovered⟩
    refine ⟨Option.some.inj leads, fun isFolder => ?_⟩
    cases top with
    | file contents => cases isFolder
    | folder readable inside => exact uncovered [] (List.prefix_refl _) readable inside rfl
  · rintro ⟨rfl, uncovered⟩
    refine ⟨rfl, nofun, fun front begins readable inside leads => ?_⟩
    obtain rfl := List.prefix_nil.1 begins
    rw [Option.some.inj leads] at uncovered
    exact uncovered rfl

/-- An entry further down. -/
theorem inSight_cons_iff {readable : Bool} {inside : Folder} {name : String} :
    InSight excluded root (.folder readable inside) (name :: names) entry ↔
      root.isCoveredBy excluded = false ∧ isHidden name = false ∧
        ∃ next, inside.find? name = some next ∧
          InSight excluded (root.child name) next names entry := by
  constructor
  · rintro ⟨leads, visible, uncovered⟩
    obtain ⟨next, found, leads⟩ := Option.bind_eq_some_iff.1 leads
    refine ⟨uncovered [] List.nil_prefix readable inside rfl, visible name List.mem_cons_self, next,
      found, leads, fun other listed => visible other (List.mem_cons_of_mem _ listed), ?_⟩
    intro front begins readable' inside' leads'
    refine uncovered (name :: front) (List.prefix_cons_inj name |>.2 begins) readable' inside' ?_
    rw [DiskEntry.descend, found]
    exact leads'
  · rintro ⟨here, shown, next, found, leads, visible, uncovered⟩
    refine ⟨by rw [DiskEntry.descend, found]; exact leads, ?_, ?_⟩
    · intro other listed
      rcases List.mem_cons.1 listed with rfl | listed
      · exact shown
      · exact visible other listed
    · intro front begins readable' inside' leads'
      cases front with
      | nil => exact here
      | cons first more =>
          obtain ⟨rfl, further⟩ := List.cons_prefix_cons.1 begins
          rw [DiskEntry.descend, found] at leads'
          exact uncovered more further readable' inside' leads'

/-- The entry that a walk starts at is on its row, unless it is an excluded folder. -/
theorem DiskEntry.mem_sights_nil_iff (listable : top.isListable = true) {isFile : Bool} :
    ⟨[], isFile⟩ ∈ top.sights excluded root ↔
      top.isFile = isFile ∧ (top.isFile = false → root.isCoveredBy excluded = false) := by
  cases top with
  | file contents =>
      rw [sights, List.mem_singleton, DiskEntry.isFile]
      constructor
      · intro same
        exact ⟨(Sight.mk.inj same).2.symm, fun isFolder => absurd isFolder.symm Bool.false_ne_true⟩
      · rintro ⟨rfl, -⟩
        rfl
  | folder readable inside =>
      rw [isListable, Bool.and_eq_true] at listable
      rw [sights, listable.1, if_pos rfl, DiskEntry.isFile]
      cases root.isCoveredBy excluded with
      | true =>
          refine iff_of_false List.not_mem_nil ?_
          rintro ⟨-, uncovered⟩
          cases uncovered rfl
      | false =>
          rw [if_neg Bool.false_ne_true, List.mem_cons]
          constructor
          · rintro (same | deeper)
            · exact ⟨(Sight.mk.inj same).2.symm, fun _ => rfl⟩
            · obtain ⟨_, -, _, same⟩ := Folder.exists_name_of_mem_sights listable.2 deeper
              cases same
          · rintro ⟨rfl, -⟩
            exact .inl rfl

/-- The other entries are those that its entries show. -/
theorem DiskEntry.mem_sights_cons_iff {readable : Bool} {inside : Folder} {name : String}
    (listable : (DiskEntry.folder readable inside).isListable = true) {isFile : Bool} :
    ⟨name :: names, isFile⟩ ∈ (DiskEntry.folder readable inside).sights excluded root ↔
      root.isCoveredBy excluded = false ∧ isHidden name = false ∧
        ∃ next, inside.find? name = some next ∧
          ⟨names, isFile⟩ ∈ next.sights excluded (root.child name) := by
  rw [isListable, Bool.and_eq_true] at listable
  rw [sights, listable.1, if_pos rfl]
  cases root.isCoveredBy excluded with
  | true =>
      refine iff_of_false List.not_mem_nil ?_
      rintro ⟨covered, -⟩
      cases covered
  | false =>
      rw [if_neg Bool.false_ne_true, List.mem_cons, Folder.mem_sights_iff listable.2]
      constructor
      · rintro (same | ⟨other, next, found, visible, ⟨below, kind⟩, listed, same⟩)
        · cases (Sight.mk.inj same).1
        · obtain ⟨row, rfl⟩ := Sight.mk.inj same
          obtain ⟨rfl, rfl⟩ := List.cons.inj row
          exact ⟨rfl, visible, next, found, listed⟩
      · rintro ⟨-, visible, next, found, listed⟩
        exact .inr ⟨name, next, found, visible, _, listed, rfl⟩

/-- **The row of a walk, said without the walk.** -/
theorem DiskEntry.mem_sights_iff (listable : top.isListable = true) {isFile : Bool} :
    ⟨names, isFile⟩ ∈ top.sights excluded root ↔
      ∃ entry, InSight excluded root top names entry ∧ entry.isFile = isFile := by
  induction names generalizing top root with
  | nil =>
      simp only [mem_sights_nil_iff listable, inSight_nil_iff]
      constructor
      · rintro ⟨same, uncovered⟩
        exact ⟨top, ⟨rfl, uncovered⟩, same⟩
      · rintro ⟨_, ⟨rfl, uncovered⟩, same⟩
        exact ⟨same, uncovered⟩
  | cons name more ih =>
      cases top with
      | file contents =>
          refine iff_of_false (fun listed => ?_) ?_
          · cases (Sight.mk.inj (List.mem_singleton.1 listed)).1
          · rintro ⟨_, shown, -⟩
            cases shown.leads
      | folder readable inside =>
          have deeper : ∀ {next : DiskEntry}, inside.find? name = some next →
              next.isListable = true := by
            rw [isListable, Bool.and_eq_true] at listable
            exact Folder.find?_of_isListable listable.2
          simp only [mem_sights_cons_iff listable, inSight_cons_iff]
          constructor
          · rintro ⟨uncovered, visible, next, found, listed⟩
            obtain ⟨entry, shown, kind⟩ := (ih (deeper found)).1 listed
            exact ⟨entry, ⟨uncovered, visible, next, found, shown⟩, kind⟩
          · rintro ⟨entry, ⟨uncovered, visible, next, found, shown⟩, kind⟩
            exact ⟨uncovered, visible, next, found, (ih (deeper found)).2 ⟨entry, shown, kind⟩⟩

/-- Entries of different names show different things. -/
theorem Folder.nodup_sights_cons {name : String} {rest : Folder} {path : Path}
    (listable : (cons name entry rest).isListable = true)
    (here : ((entry.sights excluded (path.child name)).map Sight.names).Nodup)
    (later : ((rest.sights excluded path).map Sight.names).Nodup) :
    (((cons name entry rest).sights excluded path).map Sight.names).Nodup := by
  obtain ⟨fresh, -, restListable⟩ := isListable_cons listable
  have prefixed : ((entry.sights excluded (path.child name)).map (Sight.inside name)).map
      Sight.names = ((entry.sights excluded (path.child name)).map Sight.names).map
        (List.cons name) := by
    rw [List.map_map, List.map_map]
    rfl
  rw [sights_cons, List.map_append, List.nodup_append]
  refine ⟨?_, later, ?_⟩
  · split
    · exact List.nodup_nil
    · rw [prefixed]
      exact here.map fun _ _ same => (List.cons.inj same).2
  · -- All rows of names from the entry begin with its name, and no others do.
    rintro row front other back rfl
    split at front
    · exact absurd front List.not_mem_nil
    · rw [prefixed] at front
      obtain ⟨below, -, rfl⟩ := List.mem_map.1 front
      obtain ⟨sight, listed, same⟩ := List.mem_map.1 back
      obtain ⟨first, member, more, whole⟩ := exists_name_of_mem_sights restListable listed
      rw [whole] at same
      rw [(List.cons.inj same).1] at member
      exact fresh member

theorem DiskEntry.nodup_sights_folder {readable : Bool} {inside : Folder}
    (listable : (DiskEntry.folder readable inside).isListable = true)
    (nodup : ((inside.sights excluded root).map Sight.names).Nodup) :
    (((DiskEntry.folder readable inside).sights excluded root).map Sight.names).Nodup := by
  rw [isListable, Bool.and_eq_true] at listable
  rw [sights, listable.1, if_pos rfl]
  split
  · exact List.nodup_nil
  · rw [List.map_cons, List.nodup_cons]
    refine ⟨fun listed => ?_, nodup⟩
    obtain ⟨sight, deeper, same⟩ := List.mem_map.1 listed
    obtain ⟨_, -, _, whole⟩ := Folder.exists_name_of_mem_sights listable.2 deeper
    rw [whole] at same
    cases same

theorem Folder.nodup_sights {folder : Folder} (listable : folder.isListable = true) (path : Path) :
    ((folder.sights excluded path).map Sight.names).Nodup := by
  induction folder generalizing path with
  | empty => exact List.nodup_nil
  | file name contents rest ih =>
      have listable' : (cons name (.file contents) rest).isListable = true := listable
      obtain ⟨-, -, later⟩ := isListable_cons listable'
      exact nodup_sights_cons listable' (List.nodup_cons.2 ⟨nofun, List.nodup_nil⟩) (ih later path)
  | folder name readable inside rest ihInside ihRest =>
      have listable' : (cons name (.folder readable inside) rest).isListable = true := listable
      obtain ⟨-, here, later⟩ := isListable_cons listable'
      have deeper : inside.isListable = true := by
        rw [DiskEntry.isListable, Bool.and_eq_true] at here
        exact here.2
      exact nodup_sights_cons listable'
        (DiskEntry.nodup_sights_folder here (ihInside deeper (path.child name))) (ihRest later path)

/-- **A walk comes by no entry twice.** -/
theorem DiskEntry.nodup_sights (listable : top.isListable = true) (root : Path) :
    ((top.sights excluded root).map Sight.names).Nodup := by
  cases top with
  | file contents => exact List.nodup_cons.2 ⟨nofun, List.nodup_nil⟩
  | folder readable inside =>
      refine nodup_sights_folder listable (Folder.nodup_sights ?_ root)
      rw [isListable, Bool.and_eq_true] at listable
      exact listable.2

end Sights

/-! ## Paths of entries -/

namespace Path

theorem components_down {names : List String}
    (ordinary : ∀ name ∈ names, isOrdinaryName name = true) (path : Path) :
    (path.down names).components = path.components ++ names.map Component.named := by
  induction names generalizing path with
  | nil => exact (List.append_nil _).symm
  | cons name more ih =>
      have inner := isInner_of_isOrdinaryName (ordinary name List.mem_cons_self)
      rw [List.map_cons, List.append_cons, ← components_child_of_inner path inner]
      exact ih (fun other listed => ordinary other (List.mem_cons_of_mem _ listed)) (path.child name)

/-- The normal form of a path further down, whether or not the path is normal. -/
theorem components_normalize_down {names : List String}
    (ordinary : ∀ name ∈ names, isOrdinaryName name = true) (path : Path) :
    (path.down names).normalize.components =
      path.normalize.components ++ names.map Component.named := by
  have direct : IsDirect (names.map Component.named) := by
    intro component listed
    obtain ⟨name, -, rfl⟩ := List.mem_map.1 listed
    exact ⟨Component.noConfusion, Component.noConfusion⟩
  rw [components_normalize, components_down ordinary, List.foldl_append,
    foldl_normalizeStep_of_isDirect direct, List.reverse_append, List.reverse_reverse,
    ← components_normalize]

/-- **Different rows of names lead to different normal forms.** -/
theorem eq_of_normalize_down {names others : List String} {path : Path}
    (ordinary : ∀ name ∈ names, isOrdinaryName name = true)
    (ordinary' : ∀ name ∈ others, isOrdinaryName name = true)
    (same : ((path.down names).normalize == (path.down others).normalize) = true) :
    names = others := by
  have rows := beq_iff.1 same
  rw [components_normalize_down ordinary, components_normalize_down ordinary'] at rows
  exact List.map_injective_iff.2 (fun _ _ same => Component.named.inj same)
    (List.append_cancel_left rows)

end Path

/-! ## What a walk finds -/

namespace Discovery

variable {rules : DiscoveryRules} {root : Path} {top : DiskEntry} {scan : Discovery}
variable {sights : List Sight} {names : List String}

/-- Whether names lead to a file that a walk is to find. -/
def Eligible (rules : DiscoveryRules) (root : Path) (top : DiskEntry) (names : List String) : Prop :=
  (∃ contents, InSight rules.excluded root top names (.file contents)) ∧
    (root.down names).isHdl = true

/-- Whether a walk has left an entry unvisited that is in sight: there are more of them than it has
visited. An entry that is one too many is counted by the walk, but it is not visited. -/
def LeavesUnvisited (scan : Discovery) (rules : DiscoveryRules) (root : Path) (top : DiskEntry) :
    Prop :=
  ∃ rows : List (List String), rows.Nodup ∧
    (∀ names ∈ rows, ∃ entry, InSight rules.excluded root top names entry) ∧
      min scan.visited rules.limits.entries < rows.length

/-- Whether a walk has left out a file that it was to find. -/
def LeavesUncollected (scan : Discovery) (rules : DiscoveryRules) (root : Path) (top : DiskEntry) :
    Prop :=
  ∃ names, Eligible rules root top names ∧
    scan.files.contains (root.down names).normalize = false

/-- The hardware files on the row of a walk are the files that it is to find. -/
theorem eligible_iff (listable : top.isListable = true) : Eligible rules root top names ↔
    ∃ sight ∈ top.sights rules.excluded root, sight.names = names ∧ sight.isHdlFile root = true := by
  constructor
  · rintro ⟨⟨contents, shown⟩, hdl⟩
    exact ⟨⟨names, true⟩, (DiskEntry.mem_sights_iff listable).2 ⟨_, shown, rfl⟩, rfl, hdl⟩
  · rintro ⟨⟨_, isFile⟩, listed, rfl, hdl⟩
    rw [Sight.isHdlFile, Bool.and_eq_true] at hdl
    obtain ⟨rfl, hdl⟩ := hdl
    obtain ⟨entry, shown, isFile⟩ := (DiskEntry.mem_sights_iff listable).1 listed
    cases entry with
    | file contents => exact ⟨⟨contents, shown⟩, hdl⟩
    | folder readable inside => cases isFile

/-- What a walk has found at the entries that it has seen, it was to find. -/
theorem Collects.exists_eligible {seen : List Sight} (h : Collects rules root seen scan)
    (listable : top.isListable = true)
    (among : ∀ sight ∈ seen, sight ∈ top.sights rules.excluded root) {file : Path}
    (found : scan.files.contains file = true) :
    ∃ names, Eligible rules root top names ∧ ((root.down names).normalize == file) = true := by
  obtain ⟨sight, listed, hdl, same⟩ := (h.files file).1 found
  exact ⟨sight.names, (eligible_iff listable).2 ⟨sight, among sight listed, rfl, hdl⟩, same⟩

/-- A walk that has seen the whole row has found what it was to find. -/
theorem Collects.contains_of_eligible
    (h : Collects rules root (top.sights rules.excluded root) scan)
    (listable : top.isListable = true) (eligible : Eligible rules root top names) {file : Path}
    (same : ((root.down names).normalize == file) = true) : scan.files.contains file = true := by
  obtain ⟨sight, listed, rfl, hdl⟩ := (eligible_iff listable).1 eligible
  exact (h.files file).2 ⟨sight, listed, hdl, same⟩

/-- A walk that visits fewer entries than are on its row leaves one unvisited. -/
theorem leavesUnvisited_iff (listable : top.isListable = true) :
    scan.LeavesUnvisited rules root top ↔
      min scan.visited rules.limits.entries < (top.sights rules.excluded root).length := by
  rw [← List.length_map Sight.names]
  constructor
  · rintro ⟨rows, nodup, shown, fewer⟩
    refine Nat.lt_of_lt_of_le fewer (nodup.subperm fun names listed => ?_).length_le
    obtain ⟨entry, inSight⟩ := shown names listed
    exact List.mem_map.2 ⟨_, (DiskEntry.mem_sights_iff listable).2 ⟨entry, inSight, rfl⟩, rfl⟩
  · refine fun fewer => ⟨_, DiskEntry.nodup_sights listable root, fun names listed => ?_, fewer⟩
    obtain ⟨sight, member, rfl⟩ := List.mem_map.1 listed
    obtain ⟨entry, inSight, -⟩ := (DiskEntry.mem_sights_iff listable).1 member
    exact ⟨entry, inSight⟩

/-- A hardware file that comes after what a walk has seen is not among the files that it has. -/
theorem leavesUncollected_of_next {seen rest : List Sight} {next : Sight}
    (named : top.isWellNamed = true) (listable : top.isListable = true)
    (parts : top.sights rules.excluded root = seen ++ next :: rest)
    (collects : Collects rules root seen scan) (hdl : next.isHdlFile root = true) :
    scan.LeavesUncollected rules root top := by
  have listed : next ∈ top.sights rules.excluded root := by
    rw [parts]
    exact List.mem_append_right _ List.mem_cons_self
  refine ⟨next.names, (eligible_iff listable).2 ⟨next, listed, rfl, hdl⟩, ?_⟩
  rw [Bool.eq_false_iff]
  intro collected
  obtain ⟨sight, before, -, same⟩ := (collects.files _).1 collected
  have ordinary : ∀ sight ∈ top.sights rules.excluded root,
      ∀ name ∈ sight.names, isOrdinaryName name = true := by
    intro sight member
    obtain ⟨entry, shown, -⟩ := (DiskEntry.mem_sights_iff listable).1 member
    exact DiskEntry.isOrdinaryName_of_descend named shown.leads
  have member : sight ∈ top.sights rules.excluded root := by
    rw [parts]
    exact List.mem_append_left _ before
  have twice := Path.eq_of_normalize_down (ordinary sight member) (ordinary next listed) same
  have nodup : ((top.sights rules.excluded root).map Sight.names).Nodup :=
    DiskEntry.nodup_sights listable root
  rw [parts, List.map_append, List.map_cons, List.nodup_append] at nodup
  exact nodup.2.2 _ (List.mem_map_of_mem before) _ List.mem_cons_self twice

end Discovery

/-- What a walk comes to. It has never more files than it may, and none that it was not to find. It
reports a limit exactly where an entry was left unvisited or a hardware file was left out; this is
the limit that it is due to, and it was used up. Where no limit is reported, what was to be found is
what was found. -/
structure Discovery.Finds (rules : DiscoveryRules) (root : Path) (top : DiskEntry)
    (scan : Discovery) : Prop where
  fits : scan.files.size ≤ rules.limits.files
  sound : ∀ file : Path, scan.files.contains file = true →
    ∃ names, Discovery.Eligible rules root top names ∧ ((root.down names).normalize == file) = true
  limited_iff : scan.limitHit.isSome = true ↔
    scan.LeavesUnvisited rules root top ∨ scan.LeavesUncollected rules root top
  due : ∀ limit, scan.limitHit = some limit →
    limit = rules.limits.entries ∧ scan.visited = limit + 1 ∧
      scan.LeavesUnvisited rules root top ∨
    limit = rules.limits.files ∧ scan.files.size = limit ∧ scan.LeavesUncollected rules root top
  files : scan.limitHit = none → ∀ file : Path, scan.files.contains file = true ↔
    ∃ names, Discovery.Eligible rules root top names ∧ ((root.down names).normalize == file) = true

open Discovery

/-- **Walks find what is in sight**, whatever the order of the listings. -/
theorem Disk.finds_of_discover {disk : Disk} {root : Path} {top : DiskEntry}
    (named : disk.isWellNamed = true) (found : disk.entry? root = some top)
    (listable : top.isListable = true) (rules : DiscoveryRules) :
    Finds rules root top (disk.discover root rules) := by
  have topNamed := (wellNamed_of_found named found).2
  have ends := ends_foldl_see rules root (top.sights rules.excluded root)
  rw [discover_eq, found, Option.map_some, Option.getD_some]
  generalize (top.sights rules.excluded root).foldl (see rules root) .empty = scan at ends ⊢
  cases ends with
  | whole limitHit visited few collects =>
      have sound : ∀ file : Path, scan.files.contains file = true → ∃ names,
          Eligible rules root top names ∧ ((root.down names).normalize == file) = true :=
        fun file => collects.exists_eligible listable fun _ listed => listed
      refine ⟨collects.fits, sound, ?_, fun limit hit => ?_, fun _ file => ⟨sound file, ?_⟩⟩
      · rw [limitHit]
        refine iff_of_false Bool.false_ne_true ?_
        rintro (unvisited | ⟨names, eligible, missing⟩)
        · rw [leavesUnvisited_iff listable] at unvisited
          omega
        · rw [collects.contains_of_eligible listable eligible BEq.rfl] at missing
          cases missing
      · rw [limitHit] at hit
        cases hit
      · rintro ⟨names, eligible, same⟩
        exact collects.contains_of_eligible listable eligible same
  | @entries seen rest next parts limitHit visited full collects =>
      have among : ∀ sight ∈ seen, sight ∈ top.sights rules.excluded root := by
        rw [parts]
        exact fun sight listed => List.mem_append_left _ listed
      have unvisited : scan.LeavesUnvisited rules root top := by
        rw [leavesUnvisited_iff listable, parts, List.length_append, List.length_cons]
        omega
      refine ⟨collects.fits, fun file => collects.exists_eligible listable among, ?_,
        fun limit hit => .inl ?_, fun none => ?_⟩
      · rw [limitHit]
        exact iff_of_true rfl (.inl unvisited)
      · obtain rfl := Option.some.inj (hit.symm.trans limitHit)
        exact ⟨rfl, by rw [visited, full], unvisited⟩
      · rw [limitHit] at none
        cases none
  | @files seen rest next parts limitHit visited few hdl full collects =>
      have among : ∀ sight ∈ seen, sight ∈ top.sights rules.excluded root := by
        rw [parts]
        exact fun sight listed => List.mem_append_left _ listed
      have missing := leavesUncollected_of_next topNamed listable parts collects hdl
      refine ⟨collects.fits, fun file => collects.exists_eligible listable among, ?_,
        fun limit hit => .inr ?_, fun none => ?_⟩
      · rw [limitHit]
        exact iff_of_true rfl (.inr missing)
      · obtain rfl := Option.some.inj (hit.symm.trans limitHit)
        exact ⟨rfl, full, missing⟩
      · rw [limitHit] at none
        cases none

/-- A folder with a file, a hidden folder and a folder of test benches. -/
def sourceFolder : Folder :=
  .folder ".old" true (.file "b.sv" ⟨some "module b;\nendmodule\n", 20, 0⟩ .empty)
    (.folder "tb" true (.file "a.sv" ⟨some "module a;\nendmodule\n", 20, 0⟩ .empty)
      (.file "top.sv" ⟨some "module top;\nendmodule\n", 23, 0⟩ .empty))

def sourceDisk : Disk where
  top := .folder "p" true sourceFolder .empty
  current := .ofString "/"
  now := 1

/-- A walk of it that leaves out the test benches, while a file is itself excluded. The limits are
just met. -/
def sourceWalk : Discovery :=
  sourceDisk.discover (.ofString "/p") ⟨[.ofString "/p/tb", .ofString "/p/top.sv"], ⟨2, 1⟩⟩

/-- What this walk finds. -/
theorem finds_of_sourceWalk : sourceDisk.isWellNamed = true ∧
    sourceDisk.entry? (.ofString "/p") = some (.folder true sourceFolder) ∧
    (DiskEntry.folder true sourceFolder).isListable = true ∧
    Finds ⟨[.ofString "/p/tb", .ofString "/p/top.sv"], ⟨2, 1⟩⟩ (.ofString "/p")
      (.folder true sourceFolder) sourceWalk ∧
    sourceWalk.limitHit = none ∧ sourceWalk.files.toList.map Path.toString = ["/p/top.sv"] := by
  have named : sourceDisk.isWellNamed = true := by decide +kernel
  have found : sourceDisk.entry? (.ofString "/p") = some (.folder true sourceFolder) := by
    decide +kernel
  have listable : (DiskEntry.folder true sourceFolder).isListable = true := by decide +kernel
  exact ⟨named, found, listable, Disk.finds_of_discover named found listable _,
    by decide +kernel, by decide +kernel⟩

end SvServer
