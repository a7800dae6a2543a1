import SvServer.Project.RootFiles
import SvServer.Proofs.Disk

/-!
# Splitting an exclusion

To include a path beneath an excluded folder, the folder is excluded entry by entry: what lies beside
the way down to the path stays excluded on its own. A split adds nothing else, also when it fails half
way, and when it succeeds it has added every entry beside the way.
-/

namespace SvServer.RootFiles

variable {set : RootFiles} {disk : Disk} {folder onTheWay path above : Path} {next : Component}
variable {way : List Component} {excluded : PathSet} {names : List String}

/-! ## The exclusion above a path -/

/-- An exclusion that a path lies strictly beneath. -/
structure IsExcludedBy (set : RootFiles) (path above : Path) : Prop where
  member : set.excluded.contains above = true
  beneath : path.isUnder above = true
  other : (above == path) = false

theorem isExcludedBy_of_exclusionAbove? (found : set.exclusionAbove? path = some above) :
    above ∈ set.excluded.toList ∧ set.IsExcludedBy path above := by
  have listed := List.mem_of_find?_eq_some found
  have chosen := List.find?_some found
  rw [Bool.and_eq_true, bne, Bool.not_eq_true'] at chosen
  exact ⟨listed, PathSet.contains_of_mem_toList listed, chosen.2, chosen.1⟩

theorem not_isExcludedBy_of_exclusionAbove? (free : set.exclusionAbove? path = none) :
    ¬set.IsExcludedBy path above := by
  intro excluded
  obtain ⟨listed, member, same⟩ := PathSet.exists_mem_toList excluded.member
  have passed := List.find?_eq_none.1 free listed member
  have beneath : path.isUnder listed = true := by
    rw [Path.isUnder, ← Path.beq_iff.1 same]
    exact excluded.beneath
  have other : (listed == path) = false := by
    rw [← BEq.congr_left same]
    exact excluded.other
  rw [beneath, bne, other] at passed
  exact passed rfl

/-- An exclusion strictly above a path does not lie beneath it. -/
theorem IsExcludedBy.not_isUnder (h : set.IsExcludedBy path above) : above.isUnder path = false := by
  rw [Bool.eq_false_iff]
  intro beneath
  have same : (above == path) = true := Path.beq_iff.2
    (List.IsPrefix.eq_of_length_le (Path.isUnder_iff.1 h.beneath)
      (Path.isUnder_iff.1 beneath).length_le)
  rw [h.other] at same
  cases same

/-- The way down to a path from the exclusion above it. -/
theorem exists_way_of_exclusionAbove? (normal : path.normalize = path)
    (found : set.exclusionAbove? path = some above) : ∃ way,
      above.components ++ way = path.components ∧
      Path.NormalForm (above.components ++ way) ∧
      path.components.drop above.components.length = way := by
  obtain ⟨-, excluded⟩ := isExcludedBy_of_exclusionAbove? found
  obtain ⟨way, whole⟩ := Path.isUnder_iff.1 excluded.beneath
  refine ⟨way, whole, ?_, by rw [← whole, List.drop_left]⟩
  rw [whole]
  exact Path.normalForm_of_normalize_eq normal

/-! ## What a split adds -/

/-- An entry of a folder on the way down from `folder` that does not lie on that way itself. -/
inductive Beside (disk : Disk) : Path → List Component → Path → Prop
  | here {folder : Path} {next : Component} {way : List Component} {names : List String}
      {name : String} (listed : disk.list? folder = some names) (member : name ∈ names)
      (aside : (folder.child name == .ofComponents (folder.components ++ [next])) = false) :
      Beside disk folder (next :: way) (folder.child name)
  | deeper {folder path : Path} {next : Component} {way : List Component} {names : List String}
      {name : String} (listed : disk.list? folder = some names) (member : name ∈ names)
      (along : (folder.child name == .ofComponents (folder.components ++ [next])) = true)
      (beside : Beside disk (.ofComponents (folder.components ++ [next])) way path) :
      Beside disk folder (next :: way) path

/-! ## One folder -/

/-- What a split does with one entry of a folder, unless it has failed before. -/
def splitStep (disk : Disk) (folder onTheWay : Path) (way : List Component) :
    PathSet × Option Path → String → PathSet × Option Path
  | (excluded, some failed), _ => (excluded, some failed)
  | (excluded, none), name =>
    if folder.child name == onTheWay then excludeBeside disk onTheWay way excluded
    else (excluded.insert (folder.child name), none)

theorem excludeBeside_of_listed (listed : disk.list? folder = some names) :
    excludeBeside disk folder (next :: way) excluded =
      names.foldl (splitStep disk folder (.ofComponents (folder.components ++ [next])) way)
        (excluded, none) := by
  rw [excludeBeside, Disk.isFolder_of_list? listed, listed]
  show names.foldl _ _ = _
  congr 1
  funext ⟨reached, failed⟩ name
  cases failed <;> rfl

theorem excludeBeside_of_unlisted (unlisted : disk.list? folder = none) :
    excludeBeside disk folder (next :: way) excluded =
      (excluded, if disk.isFolder folder then some folder else none) := by
  rw [excludeBeside, unlisted]
  cases disk.isFolder folder <;> rfl

/-- A split that has failed goes no further. -/
theorem foldl_splitStep_of_failed (names : List String) (excluded : PathSet) (failed : Path) :
    names.foldl (splitStep disk folder onTheWay way) (excluded, some failed) =
      (excluded, some failed) := by
  induction names with
  | nil => rfl
  | cons name rest ih => exact ih

/-- What one entry of a folder adds to a split: the entry, or what lies beside the way further
down. -/
def Adds (disk : Disk) (folder onTheWay : Path) (way : List Component) (name : String)
    (path : Path) : Prop :=
  if folder.child name == onTheWay then Beside disk onTheWay way path
  else path = folder.child name

/-- The entries beside the way are those that the entries of the first folder add. -/
theorem beside_iff (listed : disk.list? folder = some names) :
    Beside disk folder (next :: way) path ↔
      ∃ name ∈ names, Adds disk folder (.ofComponents (folder.components ++ [next])) way name path := by
  constructor
  · intro beside
    cases beside with
    | here listed' member aside =>
        obtain rfl := Option.some.inj (listed.symm.trans listed')
        exact ⟨_, member, by rw [Adds, aside]; rfl⟩
    | deeper listed' member along beside =>
        obtain rfl := Option.some.inj (listed.symm.trans listed')
        exact ⟨_, member, by rw [Adds, along]; exact beside⟩
  · rintro ⟨name, member, adds⟩
    rw [Adds] at adds
    split at adds
    · rename_i along
      exact .deeper listed member along adds
    · rename_i aside
      rw [adds]
      exact .here listed member (by simpa using aside)

theorem not_beside_of_unlisted (unlisted : disk.list? folder = none) :
    ¬Beside disk folder way path := by
  intro beside
  cases beside with
  | here listed => cases unlisted.symm.trans listed
  | deeper listed => cases unlisted.symm.trans listed

theorem mem_foldl_splitStep {state : PathSet × Option Path}
    (deeper : ∀ excluded : PathSet, path ∈ (excludeBeside disk onTheWay way excluded).1.toList →
      path ∈ excluded.toList ∨ Beside disk onTheWay way path)
    (member : path ∈ (names.foldl (splitStep disk folder onTheWay way) state).1.toList) :
    path ∈ state.1.toList ∨ ∃ name ∈ names, Adds disk folder onTheWay way name path := by
  induction names generalizing state with
  | nil => exact .inl member
  | cons name rest ih =>
      rcases ih member with stepped | ⟨later, listed, adds⟩
      · obtain ⟨excluded, _ | failed⟩ := state
        · rw [splitStep] at stepped
          split at stepped
          · rename_i along
            exact (deeper _ stepped).imp_right fun beside =>
              ⟨name, List.mem_cons_self, by rwa [Adds, if_pos along]⟩
          · rename_i aside
            rcases PathSet.mem_toList_insert stepped with same | before
            · exact .inr ⟨name, List.mem_cons_self, by rwa [Adds, if_neg aside]⟩
            · exact .inl before
        · exact .inl stepped
      · exact .inr ⟨later, List.mem_cons_of_mem _ listed, adds⟩

/-- A split that succeeds at all entries succeeds at the first. -/
theorem splitStep_of_foldl {first : String} {rest : List String}
    (succeeded : ((first :: rest).foldl (splitStep disk folder onTheWay way)
      (excluded, none)).2 = none) :
    ∃ reached, splitStep disk folder onTheWay way (excluded, none) first = (reached, none) := by
  rw [List.foldl_cons] at succeeded
  cases stepped : splitStep disk folder onTheWay way (excluded, none) first with
  | mk reached failed =>
      cases failed with
      | none => exact ⟨reached, rfl⟩
      | some failed =>
          rw [stepped, foldl_splitStep_of_failed] at succeeded
          cases succeeded

/-- The entry on the way was split too, if the whole split succeeded. -/
theorem exists_split_of_foldl {name : String}
    (succeeded : (names.foldl (splitStep disk folder onTheWay way) (excluded, none)).2 = none)
    (member : name ∈ names) (along : (folder.child name == onTheWay) = true) :
    ∃ excluded, (excludeBeside disk onTheWay way excluded).2 = none := by
  induction names generalizing excluded with
  | nil => exact absurd member List.not_mem_nil
  | cons first rest ih =>
      obtain ⟨reached, stepped⟩ := splitStep_of_foldl succeeded
      rw [List.foldl_cons, stepped] at succeeded
      rcases List.mem_cons.1 member with rfl | member
      · rw [splitStep, if_pos along] at stepped
        exact ⟨excluded, by rw [stepped]⟩
      · exact ih succeeded member

theorem contains_foldl_splitStep
    (deeper : ∀ excluded : PathSet, (excludeBeside disk onTheWay way excluded).2 = none →
      excluded.contains path = true ∨ Beside disk onTheWay way path →
        (excludeBeside disk onTheWay way excluded).1.contains path = true)
    (succeeded : (names.foldl (splitStep disk folder onTheWay way) (excluded, none)).2 = none)
    (added : excluded.contains path = true ∨
      ∃ name ∈ names, Adds disk folder onTheWay way name path) :
    (names.foldl (splitStep disk folder onTheWay way) (excluded, none)).1.contains path = true := by
  induction names generalizing excluded with
  | nil =>
      rcases added with before | ⟨name, member, -⟩
      · exact before
      · exact absurd member List.not_mem_nil
  | cons first rest ih =>
      obtain ⟨reached, stepped⟩ := splitStep_of_foldl succeeded
      rw [List.foldl_cons, stepped] at succeeded ⊢
      -- What was there or is added by this entry is there when the next one comes.
      have here : excluded.contains path = true ∨
          Adds disk folder onTheWay way first path → reached.contains path = true := by
        intro added
        rw [splitStep] at stepped
        rw [Adds] at added
        split at stepped
        · rename_i along
          rw [if_pos along] at added
          have reaches := deeper excluded (by rw [stepped]) added
          rwa [stepped] at reaches
        · rename_i aside
          rw [if_neg aside] at added
          rw [← (Prod.mk.inj stepped).1, PathSet.contains_insert, Bool.or_eq_true]
          exact added.symm.imp_left fun same => by rw [same]; exact BEq.rfl
      refine ih succeeded ?_
      rcases added with before | ⟨name, member, adds⟩
      · exact .inl (here (.inl before))
      · rcases List.mem_cons.1 member with rfl | member
        · exact .inl (here (.inr adds))
        · exact .inr ⟨name, member, adds⟩

/-! ## The whole way -/

/-- **A split adds only what lies beside the way**, also when it fails. -/
theorem mem_excludeBeside (member : path ∈ (excludeBeside disk folder way excluded).1.toList) :
    path ∈ excluded.toList ∨ Beside disk folder way path := by
  induction way generalizing folder excluded with
  | nil => exact .inl (by rwa [excludeBeside] at member)
  | cons next way ih =>
      cases listed : disk.list? folder with
      | none =>
          rw [excludeBeside_of_unlisted listed] at member
          exact .inl member
      | some names =>
          rw [excludeBeside_of_listed listed] at member
          rw [beside_iff listed]
          exact mem_foldl_splitStep (fun _ deeper => ih deeper) member

theorem contains_excludeBeside_of_beside
    (succeeded : (excludeBeside disk folder way excluded).2 = none)
    (added : excluded.contains path = true ∨ Beside disk folder way path) :
    (excludeBeside disk folder way excluded).1.contains path = true := by
  induction way generalizing folder excluded with
  | nil =>
      rw [excludeBeside]
      rcases added with before | beside
      · exact before
      · cases beside
  | cons next way ih =>
      cases listed : disk.list? folder with
      | none =>
          rw [excludeBeside_of_unlisted listed]
          exact added.resolve_right (not_beside_of_unlisted listed)
      | some names =>
          rw [excludeBeside_of_listed listed] at succeeded ⊢
          rw [beside_iff listed] at added
          exact contains_foldl_splitStep (fun _ succeeded added => ih succeeded added) succeeded added

/-- **A split that succeeds adds exactly the entries beside the way.** -/
theorem contains_excludeBeside_iff
    (succeeded : (excludeBeside disk folder way excluded).2 = none) :
    (excludeBeside disk folder way excluded).1.contains path = true ↔
      excluded.contains path = true ∨
        ∃ entry, Beside disk folder way entry ∧ (path == entry) = true := by
  constructor
  · intro member
    obtain ⟨held, listed, same⟩ := PathSet.exists_mem_toList member
    rcases mem_excludeBeside listed with before | beside
    · rw [PathSet.contains_congr _ same]
      exact .inl (PathSet.contains_of_mem_toList before)
    · exact .inr ⟨held, beside, same⟩
  · rintro (before | ⟨entry, beside, same⟩)
    · exact contains_excludeBeside_of_beside succeeded (.inl before)
    · rw [PathSet.contains_congr _ same]
      exact contains_excludeBeside_of_beside succeeded (.inr beside)

/-! ## What lies beside a way -/

theorem Beside.isUnder (h : Beside disk folder way path) : path.isUnder folder = true := by
  induction h with
  | here => exact Path.isUnder_child _ _
  | deeper _ _ along _ ih =>
      refine Path.isUnder_trans ih ?_
      rw [← Path.isUnder_congr along]
      exact Path.isUnder_child _ _

/-- What a split excludes was excluded before or lies in the folder. -/
theorem contains_excludeBeside (disk : Disk)
    (member : (excludeBeside disk folder way excluded).1.contains path = true) :
    excluded.contains path = true ∨ path.isUnder folder = true := by
  obtain ⟨held, listed, same⟩ := PathSet.exists_mem_toList member
  rw [PathSet.contains_congr _ same, Path.isUnder_congr same]
  exact (mem_excludeBeside listed).imp PathSet.contains_of_mem_toList Beside.isUnder

/-- Entries beside a way in normal form are written in their normal form. -/
theorem Beside.normalize_eq (h : Beside disk folder way path) (named : disk.isWellNamed = true)
    (form : Path.NormalForm (folder.components ++ way)) (normal : folder.normalize = folder) :
    path.normalize = path := by
  induction h with
  | here listed member _ =>
      exact Path.normalize_child normal
        (isInner_of_isOrdinaryName (Disk.isOrdinaryName_of_list? named listed member))
  | @deeper folder path next way _ _ _ _ _ _ ih =>
      have whole : folder.components ++ next :: way = (folder.components ++ [next]) ++ way := by simp
      rw [whole] at form
      refine ih ?_ form.front.normalize_ofComponents
      rwa [Path.components_ofComponents form.front.isNormalRow]

/-- **An entry beside the way leaves it at some point**, with one name. -/
theorem Beside.exists_turn (h : Beside disk folder way path) (named : disk.isWellNamed = true)
    (form : Path.NormalForm (folder.components ++ way)) :
    ∃ front next back name, way = front ++ next :: back ∧ Component.named name ≠ next ∧
      path.components = folder.components ++ front ++ [.named name] := by
  induction h with
  | @here folder next way names name listed member aside =>
      have ordinary := isInner_of_isOrdinaryName (Disk.isOrdinaryName_of_list? named listed member)
      have whole : folder.components ++ next :: way = (folder.components ++ [next]) ++ way := by simp
      rw [whole] at form
      have down := Path.components_child_of_inner folder ordinary
      refine ⟨[], next, way, name, rfl, ?_, by rw [down, List.append_nil]⟩
      rintro rfl
      have along : (folder.child name == .ofComponents (folder.components ++ [.named name])) = true :=
        Path.beq_iff.2 (by rw [down, Path.components_ofComponents form.front.isNormalRow])
      rw [along] at aside
      exact absurd aside (by decide)
  | @deeper folder path next way _ _ _ _ _ _ ih =>
      have whole : folder.components ++ next :: way = (folder.components ++ [next]) ++ way := by simp
      rw [whole] at form
      rw [Path.components_ofComponents form.front.isNormalRow] at ih
      obtain ⟨front, turn, back, name, rfl, aside, read⟩ := ih form
      exact ⟨next :: front, turn, back, name, rfl, aside, by rw [read]; simp⟩

/-- **Nothing lies both beside the way and at its end.** -/
theorem Beside.not_prefix (h : Beside disk folder way path) (named : disk.isWellNamed = true)
    (form : Path.NormalForm (folder.components ++ way)) {file : Path}
    (ends : folder.components ++ way <+: file.components) : file.isUnder path = false := by
  rw [Bool.eq_false_iff]
  intro beneath
  obtain ⟨front, next, back, name, rfl, aside, read⟩ := h.exists_turn named form
  obtain ⟨rest, whole⟩ := Path.isUnder_iff.1 beneath
  obtain ⟨more, whole'⟩ := ends
  have same := whole.trans whole'.symm
  simp only [read, List.append_assoc, List.append_cancel_left_eq, List.cons_append] at same
  exact aside (List.cons.inj same).1

theorem Beside.components_ne_nil (h : Beside disk folder way path)
    (named : disk.isWellNamed = true) : path.components ≠ [] := by
  induction h with
  | here listed member _ =>
      rw [Path.components_child_of_inner _
        (isInner_of_isOrdinaryName (Disk.isOrdinaryName_of_list? named listed member))]
      exact List.append_ne_nil_of_right_ne_nil _ (List.cons_ne_nil _ _)
  | deeper _ _ _ _ ih => exact ih

/-- An entry beside the way is not the folder itself. -/
theorem Beside.ne_folder (h : Beside disk folder way path) (named : disk.isWellNamed = true)
    (form : Path.NormalForm (folder.components ++ way)) : (path == folder) = false := by
  rw [Bool.eq_false_iff]
  intro same
  obtain ⟨front, next, back, name, -, -, read⟩ := h.exists_turn named form
  have lengths := congrArg List.length (read.symm.trans (Path.beq_iff.1 same))
  simp at lengths

/-- **Every file in the folder that is not at the end of the way lies beside it**, if all folders on
the way can be listed. -/
theorem exists_beside {file : Path} (form : Path.NormalForm (folder.components ++ way))
    (normal : folder.normalize = folder) (nonempty : folder.components ≠ [])
    (there : disk.pathExists (.ofComponents (folder.components ++ way)) = true)
    (split : ∃ excluded, (excludeBeside disk folder way excluded).2 = none)
    (normalFile : file.normalize = file) (isFile : disk.isFile file = true)
    (below : file.IsBelow folder) (aside : ¬folder.components ++ way <+: file.components) :
    ∃ entry, Beside disk folder way entry ∧ file.isUnder entry = true := by
  induction way generalizing folder with
  | nil =>
      obtain ⟨row, -, whole⟩ := below
      rw [List.append_nil, whole] at aside
      exact absurd (List.prefix_append _ _) aside
  | cons next way ih =>
      have whole : folder.components ++ next :: way = (folder.components ++ [next]) ++ way := by simp
      -- The folder is there, and since it was split it could be listed.
      obtain ⟨readable, inside, found, -⟩ := Disk.exists_folder_of_row form nonempty there
      rw [Path.ofComponents_components normal] at found
      obtain ⟨excluded, succeeded⟩ := split
      cases listed : disk.list? folder with
      | none =>
          have isFolder : disk.isFolder folder = true := by rw [Disk.isFolder, found]
          rw [excludeBeside_of_unlisted listed, isFolder] at succeeded
          cases succeeded
      | some names =>
          rw [excludeBeside_of_listed listed] at succeeded
          obtain ⟨name, member, below⟩ :=
            Disk.exists_child_of_isBelow listed normal nonempty normalFile isFile below
          cases along : folder.child name == .ofComponents (folder.components ++ [next]) with
          | false => exact ⟨_, .here listed member along, below.isUnder⟩
          | true =>
              have reads := Path.beq_iff.1 along
              rw [whole] at form there aside
              have read := Path.components_ofComponents form.front.isNormalRow
              obtain ⟨row, direct, further⟩ := below
              rw [reads] at further
              obtain ⟨entry, beside, beneath⟩ := ih (by rwa [read]) form.front.normalize_ofComponents
                (by rw [read]; simp) (by rwa [read]) (exists_split_of_foldl succeeded member along)
                ⟨row, direct, further⟩ (by rwa [read])
              exact ⟨entry, .deeper listed member along beside, beneath⟩

end SvServer.RootFiles
