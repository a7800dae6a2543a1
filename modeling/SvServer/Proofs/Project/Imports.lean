import SvServer.Proofs.Project.Roots

/-!
# Which roots are imported

Settings list the roots that a project is to import. Of those that it has, a project keeps the listed
ones; of the others it takes in, in path order, each one that overlaps no root it has by then. Above
comes before beneath in path order. So what is taken in are the outermost of the listed roots that
overlap none of the kept ones.
-/

namespace SvServer

namespace Path

/-! ## Overlaps -/

/-- Whether one of two paths is the other or lies beneath it. -/
def overlaps (a b : Path) : Bool := a.isUnder b || b.isUnder a

theorem overlaps_iff {a b : Path} :
    a.overlaps b = true ↔ a.isUnder b = true ∨ b.isUnder a = true := by
  rw [overlaps, Bool.or_eq_true]

@[simp] theorem overlaps_self (path : Path) : path.overlaps path = true := by simp [overlaps]

theorem overlaps_comm (a b : Path) : a.overlaps b = b.overlaps a := Bool.or_comm ..

/-- How the path above is spelled does not matter either. -/
theorem isUnder_congr_above {a b : Path} (h : (a == b) = true) (path : Path) :
    path.isUnder a = path.isUnder b := by
  rw [isUnder, isUnder, beq_iff.1 h]

theorem overlaps_congr {a b : Path} (h : (a == b) = true) (other : Path) :
    a.overlaps other = b.overlaps other := by
  rw [overlaps, overlaps, isUnder_congr h, isUnder_congr_above h]

theorem overlaps_congr_right {a b : Path} (h : (a == b) = true) (other : Path) :
    other.overlaps a = other.overlaps b := by
  rw [overlaps_comm, overlaps_congr h, overlaps_comm]

/-- A row of components comes before every longer row that begins with it. -/
theorem compare_prefix {row longer : List Component} (h : row <+: longer) :
    compare longer row ≠ .lt := by
  induction row generalizing longer with
  | nil => cases longer <;> simp
  | cons first rest ih =>
      obtain ⟨more, rfl⟩ := h
      have tail := ih (List.prefix_append rest more)
      have self : compare first first = .eq := Std.ReflCmp.compare_self
      rw [List.compare_eq_compareLex] at tail ⊢
      rw [List.cons_append, List.compareLex_cons_cons, self]
      exact tail

/-- **In path order nothing comes before what it lies beneath.** -/
theorem isUnder_eq_false_of_lt {a b : Path} (h : compare a b = .lt) : a.isUnder b = false := by
  rw [Bool.eq_false_iff]
  intro beneath
  exact compare_prefix (isUnder_iff.1 beneath) h

end Path

theorem PathSet.toList_above_first (set : PathSet) :
    set.toList.Pairwise fun earlier later => earlier.isUnder later = false :=
  Std.ExtTreeSet.ordered_toList.imp Path.isUnder_eq_false_of_lt

namespace Project

variable {project : Project} {disk : Disk} {entries : List String} {root other : Path}

/-! ## Roots that a project has room for -/

/-- A root is imported if files stand at it. -/
theorem contains_imports_iff : project.imports.contains root = true ↔
    ∃ set, project.imports[root]? = some set := by
  rw [Std.ExtTreeMap.contains_eq_isSome_getElem?, Option.isSome_iff_exists]

/-- Whether a path overlaps no root of the project. -/
def hasRoomFor (project : Project) (root : Path) : Bool :=
  !(project.covers root || project.hasRootUnder root)

theorem hasRoomFor_eq_false_iff : project.hasRoomFor root = false ↔
    ∃ place set, project.files? place = some set ∧ root.overlaps set.root = true := by
  rw [hasRoomFor, Bool.not_eq_false', Bool.or_eq_true, covers, hasRootUnder, List.any_eq_true,
    List.any_eq_true]
  simp only [mem_rootFiles_iff, RootFiles.isUnderRoot, Path.overlaps_iff]
  constructor
  · rintro (⟨set, ⟨place, found⟩, beneath⟩ | ⟨set, ⟨place, found⟩, around⟩)
    · exact ⟨place, set, found, .inl beneath⟩
    · exact ⟨place, set, found, .inr around⟩
  · rintro ⟨place, set, found, beneath | around⟩
    · exact .inl ⟨set, ⟨place, found⟩, beneath⟩
    · exact .inr ⟨set, ⟨place, found⟩, around⟩

/-- **A project has room for a path that overlaps neither its principal root nor an import.** -/
theorem hasRoomFor_iff (h : project.Rooted) : project.hasRoomFor root = true ↔
    root.overlaps project.root = false ∧
      ∀ other, project.imports.contains other = true → root.overlaps other = false := by
  rw [← Bool.not_eq_false, hasRoomFor_eq_false_iff]
  constructor
  · intro room
    refine ⟨?_, fun other member => ?_⟩
    · rw [Bool.eq_false_iff]
      exact fun overlap => room ⟨none, _, rfl, overlap⟩
    · obtain ⟨set, found⟩ := contains_imports_iff.1 member
      rw [Bool.eq_false_iff]
      intro overlap
      refine room ⟨some other, set, found, ?_⟩
      rwa [Path.overlaps_congr_right (h.keys other set found)]
  · rintro ⟨principal, imports⟩ ⟨place, set, found, overlap⟩
    cases place with
    | none =>
        rw [← Option.some.inj found] at overlap
        exact Bool.false_ne_true (principal.symm.trans overlap)
    | some other =>
        rw [Path.overlaps_congr_right (h.keys other set found)] at overlap
        exact Bool.false_ne_true
          ((imports other (contains_imports_iff.2 ⟨set, found⟩)).symm.trans overlap)

theorem hasRoomFor_congr (project : Project) (same : (root == other) = true) :
    project.hasRoomFor root = project.hasRoomFor other := by
  have alike : project.hasRoomFor root = false ↔ project.hasRoomFor other = false := by
    simp only [hasRoomFor_eq_false_iff, Path.overlaps_congr same]
  cases here : project.hasRoomFor root with
  | false => exact (alike.1 here).symm
  | true =>
      rw [eq_comm, ← Bool.not_eq_false, ← alike, here]
      decide

/-! ## One root -/

/-- An import is added where there is room for it, and otherwise nothing changes. -/
theorem addImport_eq (h : project.Rooted) (root : Path) :
    project.addImport root =
      if project.hasRoomFor root then
        { project with
          imports := project.imports.insert root (.ofRoot root project.principal.limits) }
      else project := by
  have known : project.imports.contains root = true → project.hasRoomFor root = false := by
    intro member
    rw [Bool.eq_false_iff]
    intro room
    have apart := ((hasRoomFor_iff h).1 room).2 root member
    rw [Path.overlaps_self] at apart
    exact Bool.false_ne_true apart.symm
  rw [addImport, Bool.or_assoc]
  cases member : project.imports.contains root with
  | true =>
      rw [known member]
      rfl
  | false =>
      rw [hasRoomFor, Bool.false_or]
      cases project.covers root || project.hasRootUnder root <;> rfl

theorem contains_insert (project : Project) (root other : Path) (set : RootFiles) :
    (project.imports.insert root set).contains other =
      (root == other || project.imports.contains other) := by
  rw [Std.ExtTreeMap.contains_insert, Path.compare_beq_eq]

theorem contains_addImport (h : project.Rooted) (root other : Path) :
    (project.addImport root).imports.contains other =
      (project.imports.contains other || (project.hasRoomFor root && root == other)) := by
  rw [addImport_eq h]
  cases project.hasRoomFor root with
  | false => simp
  | true =>
      rw [if_pos rfl, contains_insert, Bool.true_and, Bool.or_comm]

/-- Adding imports moves the principal root nowhere. -/
theorem principal_addImport (project : Project) (root : Path) :
    (project.addImport root).principal = project.principal := by
  rw [addImport]
  split <;> rfl

/-- Once an import was added, there is room for what overlaps neither it nor the roots before. -/
theorem hasRoomFor_addImport (h : project.Rooted) (normal : root.IsNormal)
    (room : project.hasRoomFor root = true) : (project.addImport root).hasRoomFor other =
      (project.hasRoomFor other && !other.overlaps root) := by
  rw [Bool.eq_iff_iff, Bool.and_eq_true, Bool.not_eq_true', hasRoomFor_iff (h.addImport normal),
    hasRoomFor_iff h, Project.root, principal_addImport, ← Project.root]
  simp only [contains_addImport h, room, Bool.true_and, Bool.or_eq_true]
  constructor
  · rintro ⟨principal, imports⟩
    exact ⟨⟨principal, fun import_ member => imports import_ (.inl member)⟩,
      imports root (.inr BEq.rfl)⟩
  · rintro ⟨⟨principal, imports⟩, new⟩
    refine ⟨principal, fun import_ member => ?_⟩
    rcases member with member | same
    · exact imports import_ member
    · rw [← Path.overlaps_congr_right same]
      exact new

theorem getElem?_dropImport (project : Project) (root other : Path) :
    (project.dropImport root).1.imports[other]? =
      if root == other then none else project.imports[other]? := by
  rw [dropImport]
  split
  · rename_i absent
    split
    · rename_i same
      rw [← PathMap.getElem?_congr _ same, absent]
    · rfl
  · exact PathMap.getElem?_erase ..

theorem getElem?_dropStep (state : Project × FileChanges) (root other : Path) :
    (dropStep state root).1.imports[other]? =
      if root == other then none else state.1.imports[other]? :=
  getElem?_dropImport state.1 root other

/-! ## All roots of the settings -/

/-- **Of the imports there were, those that settings list stay** as they are. -/
theorem getElem?_dropUnwanted (project : Project) (disk : Disk) (entries : List String)
    (root : Path) : (project.dropUnwanted disk entries).1.imports[root]? =
      if (wantedImports disk entries).contains root then project.imports[root]? else none := by
  have dropped : (project.dropUnwanted disk entries).1.imports[root]? =
      if (project.imports.keys.filter fun key => !(wantedImports disk entries).contains key).any
        (· == root) then none else project.imports[root]? :=
    read_foldl (fun (state : Project × FileChanges) path => state.1.imports[path]?)
      (fun (key : Path) path => key == path) getElem?_dropStep (fun _ _ _ => rfl)
      (project, FileChanges.empty)
  rw [dropped]
  cases wanted : (wantedImports disk entries).contains root with
  | true =>
      -- No spelling of a listed root is dropped.
      rw [if_neg, if_pos rfl]
      intro hit
      obtain ⟨key, listed, same⟩ := List.any_eq_true.1 hit
      have unwanted := (List.mem_filter.1 listed).2
      rw [PathSet.contains_congr _ same, wanted] at unwanted
      exact absurd unwanted (by decide)
  | false =>
      rw [if_neg Bool.false_ne_true]
      split
      · rfl
      · rename_i missed
        cases stored : project.imports[root]? with
        | none => rfl
        | some set =>
            obtain ⟨key, same, listed⟩ := PathMap.exists_mem_toList stored
            refine absurd (List.any_eq_true.2 ⟨key, List.mem_filter.2 ⟨?_, ?_⟩, ?_⟩) missed
            · rw [← Std.ExtTreeMap.map_fst_toList_eq_keys]
              exact List.mem_map_of_mem listed
            · rw [← PathSet.contains_congr _ same, wanted]
              rfl
            · exact BEq.symm same

theorem contains_dropUnwanted (project : Project) (disk : Disk) (entries : List String)
    (root : Path) : (project.dropUnwanted disk entries).1.imports.contains root =
      (project.imports.contains root && (wantedImports disk entries).contains root) := by
  rw [Std.ExtTreeMap.contains_eq_isSome_getElem?, getElem?_dropUnwanted,
    Std.ExtTreeMap.contains_eq_isSome_getElem?]
  cases (wantedImports disk entries).contains root <;> simp

theorem principal_dropUnwanted (project : Project) (disk : Disk) (entries : List String) :
    (project.dropUnwanted disk entries).1.principal = project.principal := by
  refine List.foldlRecOn (motive := fun state : Project × FileChanges =>
    state.1.principal = project.principal) _ dropStep rfl fun state known root _ => ?_
  rw [dropStep, dropImport]
  split <;> exact known

theorem Rooted.dropUnwanted (h : project.Rooted) (disk : Disk) (entries : List String) :
    (project.dropUnwanted disk entries).1.Rooted :=
  List.foldlRecOn (motive := fun state : Project × FileChanges => state.1.Rooted) _ dropStep h
    fun _ h root _ => h.dropImport root

/-- Whether a root is among the outermost paths of a list that a project has room for. -/
def Picks (project : Project) (wanted : List Path) (root : Path) : Prop :=
  ∃ pick ∈ wanted, (pick == root) = true ∧ project.hasRoomFor pick = true ∧
    ∀ other ∈ wanted, project.hasRoomFor other = true → pick.isUnder other = true →
      (other == pick) = true

/-- A root that there is no room for has no part in the choice. -/
theorem picks_cons_of_full {first : Path} {rest : List Path}
    (full : project.hasRoomFor first = false) :
    project.Picks (first :: rest) other ↔ project.Picks rest other := by
  constructor
  · rintro ⟨pick, listed, same, free, outermost⟩
    rcases List.mem_cons.1 listed with rfl | listed
    · exact absurd (full.symm.trans free) Bool.false_ne_true
    · exact ⟨pick, listed, same, free, fun other member =>
        outermost other (List.mem_cons_of_mem _ member)⟩
  · rintro ⟨pick, listed, same, free, outermost⟩
    refine ⟨pick, List.mem_cons_of_mem _ listed, same, free, fun other member free' => ?_⟩
    rcases List.mem_cons.1 member with rfl | member
    · exact absurd (full.symm.trans free') Bool.false_ne_true
    · exact outermost other member free'

/-- The first of several roots that there is room for is picked, and what overlaps it is not. -/
theorem picks_cons_of_room (h : project.Rooted) {first : Path} {rest : List Path}
    (normal : first.IsNormal) (above : ∀ later ∈ rest, first.isUnder later = false)
    (room : project.hasRoomFor first = true) :
    project.Picks (first :: rest) other ↔
      (first == other) = true ∨ (project.addImport first).Picks rest other := by
  have free : ∀ path, (project.addImport first).hasRoomFor path = true ↔
      project.hasRoomFor path = true ∧ path.overlaps first = false := by
    intro path
    rw [hasRoomFor_addImport h normal room, Bool.and_eq_true, Bool.not_eq_true']
  constructor
  · rintro ⟨pick, listed, same, room', outermost⟩
    rcases List.mem_cons.1 listed with rfl | listed
    · exact .inl same
    · cases overlap : pick.overlaps first with
      | true =>
          -- The first root comes first, so the pick lies beneath it; but it is outermost.
          have beneath : pick.isUnder first = true := by
            rcases Path.overlaps_iff.1 overlap with beneath | around
            · exact beneath
            · exact absurd ((above pick listed).symm.trans around) Bool.false_ne_true
          exact .inl (BEq.trans (outermost first List.mem_cons_self room beneath) same)
      | false =>
          exact .inr ⟨pick, listed, same, (free pick).2 ⟨room', overlap⟩, fun other member free' =>
            outermost other (List.mem_cons_of_mem _ member) ((free other).1 free').1⟩
  · rintro (same | ⟨pick, listed, same, room', outermost⟩)
    · refine ⟨first, List.mem_cons_self, same, room, fun other member _ beneath => ?_⟩
      rcases List.mem_cons.1 member with rfl | member
      · exact BEq.rfl
      · exact absurd ((above other member).symm.trans beneath) Bool.false_ne_true
    · obtain ⟨room', apart⟩ := (free pick).1 room'
      refine ⟨pick, List.mem_cons_of_mem _ listed, same, room', fun other member free' beneath => ?_⟩
      rcases List.mem_cons.1 member with rfl | member
      · exact absurd (apart.symm.trans (Path.overlaps_iff.2 (.inl beneath))) Bool.false_ne_true
      · refine outermost other member ((free other).2 ⟨free', ?_⟩) beneath
        rw [Bool.eq_false_iff]
        intro overlap
        rcases Path.overlaps_iff.1 overlap with inside | around
        · have overlap' := Path.overlaps_iff.2 (.inl (Path.isUnder_trans beneath inside))
          exact Bool.false_ne_true (apart.symm.trans overlap')
        · exact Bool.false_ne_true ((above other member).symm.trans around)

/-- What adding the first of several roots does to the choice of the others. -/
theorem picks_cons (h : project.Rooted) {first : Path} {rest : List Path} (normal : first.IsNormal)
    (above : ∀ later ∈ rest, first.isUnder later = false) :
    project.Picks (first :: rest) other ↔
      (project.hasRoomFor first = true ∧ (first == other) = true) ∨
        (project.addImport first).Picks rest other := by
  cases room : project.hasRoomFor first with
  | false =>
      have kept : project.addImport first = project := by
        rw [addImport_eq h, room]
        rfl
      rw [kept, picks_cons_of_full room]
      simp
  | true =>
      rw [picks_cons_of_room h normal above room]
      simp

/-- **Adding roots in path order takes in the outermost ones** that there is room for. -/
theorem contains_foldl_addImport (h : project.Rooted) {wanted : List Path}
    (normal : ∀ root ∈ wanted, root.IsNormal)
    (ordered : wanted.Pairwise fun earlier later => earlier.isUnder later = false) :
    (wanted.foldl Project.addImport project).imports.contains root = true ↔
      project.imports.contains root = true ∨ project.Picks wanted root := by
  induction wanted generalizing project with
  | nil => simp [Picks]
  | cons first rest ih =>
      obtain ⟨above, ordered⟩ := List.pairwise_cons.1 ordered
      have normal' := normal first List.mem_cons_self
      rw [List.foldl_cons, picks_cons h normal' above, ih (h.addImport normal')
        (fun root member => normal root (List.mem_cons_of_mem _ member)) ordered,
        contains_addImport h, Bool.or_eq_true, Bool.and_eq_true, or_assoc]

/-- **What settings make of the imports**: those that they list stay, and of the others they list
the outermost ones come in that overlap none of them. -/
theorem contains_importRoots (h : project.Rooted) (disk : Disk) (entries : List String)
    (root : Path) : (project.importRoots disk entries).1.imports.contains root = true ↔
      (project.imports.contains root = true ∧ (wantedImports disk entries).contains root = true) ∨
        (project.dropUnwanted disk entries).1.Picks (wantedImports disk entries).toList root := by
  rw [importRoots_eq, contains_foldl_addImport (h.dropUnwanted disk entries)
    (fun _ => isNormal_of_wantedImports) (PathSet.toList_above_first _), contains_dropUnwanted,
    Bool.and_eq_true]

/-- An import keeps its files when another root is added. -/
theorem getElem?_addImport {set : RootFiles} (found : project.imports[other]? = some set)
    (root : Path) : (project.addImport root).imports[other]? = some set := by
  rw [addImport]
  split
  · exact found
  · rename_i free
    rw [PathMap.getElem?_insert]
    split
    · rename_i same
      simp only [Bool.or_eq_true, not_or] at free
      rw [Std.ExtTreeMap.contains_eq_isSome_getElem?, PathMap.getElem?_congr _ same, found] at free
      exact absurd rfl free.1.1
    · exact found

/-- An import that settings list keeps its files. -/
theorem importRoots_of_kept {set : RootFiles}
    (listed : (wantedImports disk entries).contains root = true)
    (found : project.imports[root]? = some set) :
    (project.importRoots disk entries).1.imports[root]? = some set := by
  rw [importRoots_eq]
  refine List.foldlRecOn (motive := fun between : Project => between.imports[root]? = some set) _ _
    ?_ fun between kept first _ => getElem?_addImport kept first
  rw [getElem?_dropUnwanted, if_pos listed, found]

end Project

end SvServer
