import Mathlib.Data.List.Induction
import SvServer.Disk
import SvServer.Proofs.PathText

/-!
# Looking up and writing

A look-up goes from folder to folder, and `..` leads back to the folder that it came from. So where
it stands after some segments is told by the names that are left once every `..` has taken one away:
these are the names in the normal form of the path, which a write goes along. What was written is
therefore found under the path that it was written to.

On a disk no name is empty, stands for a folder around it or holds a separator; so no segment of a
path that leads somewhere holds one.
-/

namespace SvServer

/-- Whether an entry of a folder can have the name. -/
def isOrdinaryName (name : String) : Bool :=
  name ≠ "" && name ≠ "." && name ≠ ".." && !name.toList.contains '/'

theorem isInner_of_isOrdinaryName {name : String} (h : isOrdinaryName name = true) :
    (Component.named name).IsInner := by
  simp only [isOrdinaryName, Bool.and_eq_true, decide_eq_true_eq] at h
  exact ⟨h.1.1.1, h.1.1.2, h.1.2⟩

theorem not_mem_of_isOrdinaryName {name : String} (h : isOrdinaryName name = true) :
    '/' ∉ name.toList := by
  simp only [isOrdinaryName, Bool.and_eq_true] at h
  simpa using h.2

namespace Folder

/-- Whether all names in the folder, and in the folders in it, are ordinary. -/
def isWellNamed : Folder → Bool
  | empty => true
  | file name _ rest => isOrdinaryName name && rest.isWellNamed
  | folder name _ inside rest => isOrdinaryName name && inside.isWellNamed && rest.isWellNamed

theorem isOrdinaryName_of_mem_names {entries : Folder} (h : entries.isWellNamed = true)
    {name : String} (listed : name ∈ entries.names) : isOrdinaryName name = true := by
  induction entries with
  | empty => exact absurd listed List.not_mem_nil
  | file other contents rest ih =>
      simp only [isWellNamed, Bool.and_eq_true] at h
      rcases List.mem_cons.1 listed with rfl | listed
      · exact h.1
      · exact ih h.2 listed
  | folder other readable inside rest _ ih =>
      simp only [isWellNamed, Bool.and_eq_true] at h
      rcases List.mem_cons.1 listed with rfl | listed
      · exact h.1.1
      · exact ih h.2 listed

end Folder

namespace DiskEntry

/-- Whether all names in the entry are ordinary. -/
def isWellNamed : DiskEntry → Bool
  | file _ => true
  | folder _ inside => inside.isWellNamed

/-- What names lead to, one folder after the other. -/
def descend : List String → DiskEntry → Option DiskEntry
  | [], entry => some entry
  | name :: more, folder _ inside => (inside.find? name).bind (descend more)
  | _ :: _, file _ => none

theorem descend_append (front more : List String) (entry : DiskEntry) :
    descend (front ++ more) entry = (descend front entry).bind (descend more) := by
  induction front generalizing entry with
  | nil => rfl
  | cons name rest ih =>
      cases entry with
      | file contents => rfl
      | folder readable inside =>
          rw [List.cons_append, descend, descend, Option.bind_assoc]
          congr 1
          exact funext ih

end DiskEntry

namespace Folder

/-- An entry that a well-named folder holds. -/
theorem find?_of_isWellNamed {entries : Folder} (h : entries.isWellNamed = true) {name : String}
    {entry : DiskEntry} (found : entries.find? name = some entry) :
    isOrdinaryName name = true ∧ entry.isWellNamed = true := by
  induction entries with
  | empty => cases found
  | file other contents rest ih =>
      simp only [isWellNamed, Bool.and_eq_true] at h
      rw [find?] at found
      split at found
      · rename_i same
        rw [← Option.some.inj found, ← same]
        exact ⟨h.1, rfl⟩
      · exact ih h.2 found
  | folder other readable inside rest _ ih =>
      simp only [isWellNamed, Bool.and_eq_true] at h
      rw [find?] at found
      split at found
      · rename_i same
        rw [← Option.some.inj found, ← same]
        exact ⟨h.1.1, h.1.2⟩
      · exact ih h.2 found

/-- A folder lists the names of its entries. -/
theorem mem_names_iff {entries : Folder} {name : String} :
    name ∈ entries.names ↔ (entries.find? name).isSome = true := by
  induction entries with
  | empty => simp [names, find?]
  | file other contents rest ih =>
      rw [names, find?, List.mem_cons, ih]
      split
      · rename_i same
        simp [same]
      · rename_i different
        rw [or_iff_right (Ne.symm different)]
  | folder other readable inside rest _ ih =>
      rw [names, find?, List.mem_cons, ih]
      split
      · rename_i same
        simp [same]
      · rename_i different
        rw [or_iff_right (Ne.symm different)]

/-! ## Writing -/

theorem find?_cons (name other : String) (entry : DiskEntry) (rest : Folder) :
    (cons name entry rest).find? other = if name = other then some entry else rest.find? other := by
  cases entry <;> rfl

theorem find?_put (name other : String) (entry : DiskEntry) (entries : Folder) :
    (entries.put name entry).find? other =
      if name = other then some entry else entries.find? other := by
  induction entries with
  | empty => rw [put, find?_cons]
  | file key contents rest ih =>
      rw [put]
      by_cases same : key = name
      · rw [if_pos same, find?_cons, find?, same]
        split <;> rfl
      · rw [if_neg same, find?, find?, ih]
        by_cases here : key = other
        · rw [if_pos here, if_pos here, if_neg (by rw [← here]; exact Ne.symm same)]
        · rw [if_neg here, if_neg here]
  | folder key readable inside rest _ ih =>
      rw [put]
      by_cases same : key = name
      · rw [if_pos same, find?_cons, find?, same]
        split <;> rfl
      · rw [if_neg same, find?, find?, ih]
        by_cases here : key = other
        · rw [if_pos here, if_pos here, if_neg (by rw [← here]; exact Ne.symm same)]
        · rw [if_neg here, if_neg here]

open DiskEntry

/-- **What a write comes to**: the file is put into the folder at hand, or the write goes on in a
folder inside. -/
theorem write_cases {contents : FileContents} {names : List String} {entries after : Folder}
    (written : write contents names entries = .ok after) :
    (∃ name, names = [name] ∧
      (∀ readable inside, entries.find? name ≠ some (.folder readable inside)) ∧
      after = entries.put name (.file contents)) ∨
    ∃ name more readable inside inside', names = name :: more ∧
      entries.find? name = some (.folder readable inside) ∧
      write contents more inside = .ok inside' ∧
      after = entries.put name (.folder readable inside') := by
  cases names with
  | nil => cases written
  | cons name more =>
      cases more with
      | nil =>
          rw [write] at written
          split at written
          · cases written
          · rename_i free
            exact .inl ⟨name, rfl, free, (Except.ok.inj written).symm⟩
      | cons next rest =>
          rw [write] at written
          · split at written
            · cases written
            · cases written
            · rename_i readable inside found
              cases deeper : write contents (next :: rest) inside with
              | error error => rw [deeper] at written; cases written
              | ok inside' =>
                  rw [deeper] at written
                  exact .inr ⟨name, next :: rest, readable, inside, inside', rfl, found, deeper,
                    (Except.ok.inj written).symm⟩
          · exact nofun

/-- What is written is found at the end of the names that were written to. -/
theorem descend_write {contents : FileContents} {names : List String} {entries after : Folder}
    (written : write contents names entries = .ok after) (readable : Bool) :
    descend names (.folder readable after) = some (.file contents) := by
  induction names generalizing entries after readable with
  | nil => cases written
  | cons name more ih =>
      rcases write_cases written with
        ⟨_, same, -, rfl⟩ | ⟨_, _, readable', inside, inside', same, -, deeper, rfl⟩
      · obtain ⟨rfl, rfl⟩ := List.cons.inj same
        rw [descend, find?_put, if_pos rfl]
        rfl
      · obtain ⟨rfl, rfl⟩ := List.cons.inj same
        rw [descend, find?_put, if_pos rfl]
        exact ih deeper readable'

/-- A write passes a folder by, or it goes on in it. -/
theorem find?_folder_of_write {contents : FileContents} {names : List String}
    {entries after : Folder} (written : write contents names entries = .ok after) {step : String}
    {readable : Bool} {inside : Folder}
    (found : entries.find? step = some (.folder readable inside)) :
    ∃ inside', after.find? step = some (.folder readable inside') ∧
      (inside' = inside ∨ ∃ more, write contents more inside = .ok inside') := by
  rcases write_cases written with
    ⟨name, -, free, rfl⟩ | ⟨name, more, _, _, inside', -, there, deeper, rfl⟩
  · have other : ¬name = step := by
      rintro rfl
      exact free readable inside found
    exact ⟨inside, by rw [find?_put, if_neg other, found], .inl rfl⟩
  · by_cases same : name = step
    · rw [same, found] at there
      obtain ⟨rfl, rfl⟩ := DiskEntry.folder.inj (Option.some.inj there)
      exact ⟨inside', by rw [find?_put, if_pos same], .inr ⟨more, deeper⟩⟩
    · exact ⟨inside, by rw [find?_put, if_neg same, found], .inl rfl⟩

/-- **A write leaves every folder a folder.** -/
theorem descend_folder_of_write {contents : FileContents} {names way : List String}
    {entries after : Folder} (written : write contents names entries = .ok after) {readable : Bool}
    {listed : Bool} {inside : Folder}
    (led : descend way (.folder readable entries) = some (.folder listed inside)) :
    ∃ listed' inside', descend way (.folder readable after) = some (.folder listed' inside') := by
  induction way generalizing names entries after readable with
  | nil => exact ⟨readable, after, rfl⟩
  | cons step way ih =>
      rw [descend] at led
      obtain ⟨entry, found, led⟩ := Option.bind_eq_some_iff.1 led
      cases entry with
      | file other => cases way <;> cases led
      | folder readable' below =>
          rw [descend]
          rcases find?_folder_of_write written found with ⟨_, found', rfl | ⟨more, deeper⟩⟩
          · rw [found']
            exact ⟨listed, inside, led⟩
          · rw [found']
            exact ih deeper led

end Folder

namespace Disk

variable {disk saved : Disk} {path : Path} {top : Folder} {segment : String} {stack : List String}
variable {trail after : List DiskEntry}

/-! ## Looking up -/

/-- The names that are left after one more segment, innermost first. -/
def stackStep (stack : List String) (segment : String) : List String :=
  if segment = "" ∨ segment = "." then stack
  else if segment = ".." then stack.tail
  else segment :: stack

/-- The entries passed on the way down some names, both innermost first. -/
inductive Trail (top : Folder) : List String → List DiskEntry → Prop
  | top : Trail top [] [.folder true top]
  | down {stack : List String} {readable : Bool} {inside : Folder} {outer : List DiskEntry}
      {name : String} {entry : DiskEntry}
      (trail : Trail top stack (.folder readable inside :: outer))
      (found : inside.find? name = some entry) :
      Trail top (name :: stack) (entry :: .folder readable inside :: outer)

/-- The innermost entry of a trail is what its names lead to. -/
theorem Trail.descend {entry : DiskEntry} {outer : List DiskEntry}
    (h : Trail top stack (entry :: outer)) :
    DiskEntry.descend stack.reverse (.folder true top) = some entry := by
  generalize row : entry :: outer = trail at h
  induction h generalizing entry outer with
  | top =>
      rw [(List.cons.inj row).1]
      rfl
  | down trail found ih =>
      rw [List.reverse_cons, DiskEntry.descend_append, ih rfl, Option.bind_some,
        DiskEntry.descend, found, (List.cons.inj row).1]
      rfl

/-- Only in a folder can a look-up go on. -/
theorem exists_folder_of_follow (step : follow trail segment = .ok after) :
    ∃ readable inside outer, trail = .folder readable inside :: outer := by
  cases trail with
  | nil => cases step
  | cons entry outer =>
      cases entry with
      | file contents => cases step
      | folder readable inside => exact ⟨readable, inside, outer, rfl⟩

/-- **What one step of a look-up comes to**, by its segment. -/
theorem follow_cases {readable : Bool} {inside : Folder} {outer : List DiskEntry}
    (step : follow (.folder readable inside :: outer) segment = .ok after) :
    (segment = "" ∨ segment = ".") ∧ after = .folder readable inside :: outer ∨
    segment = ".." ∧ after = (if outer.isEmpty then .folder readable inside :: outer else outer) ∨
    ∃ entry, inside.find? segment = some entry ∧ segment.utf8ByteSize ≤ nameLimit ∧
      ¬(segment = "" ∨ segment = ".") ∧ segment ≠ ".." ∧
      after = entry :: .folder readable inside :: outer := by
  rw [follow] at step
  split at step
  · rename_i same
    exact .inl ⟨same, (Except.ok.inj step).symm⟩
  · split at step
    · rename_i up
      exact .inr (.inl ⟨up, (Except.ok.inj step).symm⟩)
    · split at step
      · cases step
      · rename_i ordinary down short
        split at step
        · rename_i entry found
          exact .inr (.inr ⟨entry, found, by omega, ordinary, down, (Except.ok.inj step).symm⟩)
        · cases step

theorem Trail.follow (h : Trail top stack trail) (step : Disk.follow trail segment = .ok after) :
    Trail top (stackStep stack segment) after := by
  obtain ⟨readable, inside, outer, rfl⟩ := exists_folder_of_follow step
  rcases follow_cases step with ⟨same, rfl⟩ | ⟨up, rfl⟩ | ⟨entry, found, -, ordinary, down, rfl⟩
  · rwa [stackStep, if_pos same]
  · rw [up]
    cases h with
    | top => exact .top
    | down trail found => exact trail
  · rw [stackStep, if_neg ordinary, if_neg down]
    exact h.down found

/-- A look-up along two rows is one along the first and then one along the second. -/
theorem foldlM_append_iff {front back : List String} :
    (front ++ back).foldlM follow trail = .ok after ↔
      ∃ between, front.foldlM follow trail = .ok between ∧
        back.foldlM follow between = .ok after := by
  rw [List.foldlM_append]
  cases front.foldlM follow trail with
  | error error => exact iff_of_false nofun nofun
  | ok between =>
      constructor
      · exact fun steps => ⟨between, rfl, steps⟩
      · rintro ⟨_, same, steps⟩
        rwa [← Except.ok.inj same] at steps

theorem foldlM_singleton (trail : List DiskEntry) (segment : String) :
    [segment].foldlM follow trail = follow trail segment := by
  simp

/-- What a look-up with another segment in front comes to. -/
theorem foldlM_cons_iff {first : String} {rest : List String} :
    (first :: rest).foldlM follow trail = .ok after ↔
      ∃ between, follow trail first = .ok between ∧ rest.foldlM follow between = .ok after := by
  rw [← foldlM_singleton trail first, ← foldlM_append_iff, List.singleton_append]

/-- A walk gives the innermost entry of a look-up from the top. -/
theorem walk_iff {segments : List String} {entry : DiskEntry} :
    disk.walk segments = .ok entry ↔
      ∃ outer, segments.foldlM follow [.folder true disk.top] = .ok (entry :: outer) := by
  rw [walk]
  constructor
  · intro led
    split at led
    · rename_i inner outer steps
      rw [← Except.ok.inj led]
      exact ⟨outer, steps⟩
    · cases led
    · cases led
  · rintro ⟨outer, steps⟩
    rw [steps]

/-- A look-up that ends in a folder began in one. -/
theorem exists_folder_of_foldlM {segments : List String} {readable : Bool} {inside : Folder}
    {outer : List DiskEntry}
    (steps : segments.foldlM follow trail = .ok (.folder readable inside :: outer)) :
    ∃ readable inside outer, trail = .folder readable inside :: outer := by
  cases segments with
  | nil => exact ⟨readable, inside, outer, Except.ok.inj steps⟩
  | cons first rest =>
      obtain ⟨_, step, -⟩ := foldlM_cons_iff.1 steps
      exact exists_folder_of_follow step

theorem Trail.foldlM (h : Trail top stack trail) {segments : List String}
    (steps : segments.foldlM Disk.follow trail = .ok after) :
    Trail top (segments.foldl stackStep stack) after := by
  induction segments generalizing stack trail with
  | nil =>
      rw [← Except.ok.inj steps]
      exact h
  | cons first rest ih =>
      obtain ⟨between, step, steps⟩ := foldlM_cons_iff.1 steps
      exact ih (h.follow step) steps

/-! ## Names -/

/-- The name that a component stands for. -/
def nameOf? : Component → Option String
  | .named name => some name
  | _ => none

/-- Normalising goes along with a look-up: what is kept are the names that are left, and beneath them
what leads up from the start. -/
theorem names_of_normalizeSteps (segments stack : List String) (base : List Component)
    (nameless : ∀ c ∈ base, c = .root ∨ c = .up) :
    ((segments.filterMap Component.ofSegment?).foldl Path.normalizeStep
      (stack.map .named ++ base)).filterMap nameOf? = segments.foldl stackStep stack := by
  induction segments generalizing stack base with
  | nil =>
      have none : base.filterMap nameOf? = [] := by
        rw [List.filterMap_eq_nil_iff]
        intro c member
        rcases nameless c member with rfl | rfl <;> rfl
      simp [none, List.filterMap_map, Function.comp_def, nameOf?]
  | cons first rest ih =>
      rw [List.foldl_cons, stackStep]
      split
      · rename_i blank
        have read : Component.ofSegment? first = none := if_pos blank
        rw [List.filterMap_cons_none read]
        exact ih stack base nameless
      · rename_i ordinary
        split
        · rename_i up
          have read : Component.ofSegment? first = some .up := by
            rw [Component.ofSegment?, if_neg ordinary, if_pos up]
          rw [List.filterMap_cons_some read, List.foldl_cons]
          cases stack with
          | cons name below => exact ih below base nameless
          | nil =>
              have above : ∀ c ∈ Component.up :: base, c = .root ∨ c = .up := by
                intro c member
                rcases List.mem_cons.1 member with rfl | member
                · exact .inr rfl
                · exact nameless c member
              have kept : Path.normalizeStep base .up = .up :: base := by
                cases base with
                | nil => rfl
                | cons head more => rcases nameless head List.mem_cons_self with rfl | rfl <;> rfl
              have next := ih [] (.up :: base) above
              rw [List.map_nil, List.nil_append] at next ⊢
              rw [kept, next]
              rfl
        · rename_i down
          have read : Component.ofSegment? first = some (.named first) := by
            rw [Component.ofSegment?, if_neg ordinary, if_neg down]
          rw [List.filterMap_cons_some read, List.foldl_cons]
          exact ih (first :: stack) base nameless

/-- **The names that a write goes along are those that a look-up is left with.** -/
theorem namesTo_eq (disk : Disk) (path : Path) : disk.namesTo path =
    ((disk.current.join path).segments.foldl stackStep []).reverse := by
  have names : ∀ segments : List String,
      ((Path.mark segments ++ segments.filterMap Component.ofSegment?).foldl
        Path.normalizeStep []).filterMap nameOf? = segments.foldl stackStep [] := by
    intro segments
    rw [List.foldl_append]
    unfold Path.mark
    split
    · exact names_of_normalizeSteps _ [] [.root] (by simp)
    · exact names_of_normalizeSteps _ [] [] nofun
    · exact names_of_normalizeSteps _ [] [] nofun
  rw [← names, ← Path.components_eq_mark, ← List.filterMap_reverse, ← Path.components_normalize]
  rfl

/-! ## What was written -/

/-- After a write, a look-up that stays in folders goes the same way. -/
theorem follow_of_write {contents : FileContents} {names : List String} {top' : Folder}
    (written : top.write contents names = .ok top') {readable readable' : Bool}
    {inside inside' : Folder} {outer outer' : List DiskEntry}
    (before : Trail top stack (.folder readable inside :: outer))
    (now : Trail top' stack (.folder readable' inside' :: outer')) {listed : Bool} {below : Folder}
    {around : List DiskEntry}
    (step : follow (.folder readable inside :: outer) segment = .ok (.folder listed below :: around)) :
    ∃ listed' below' around', follow (.folder readable' inside' :: outer') segment =
      .ok (.folder listed' below' :: around') := by
  have led := (before.follow step).descend
  rcases follow_cases step with ⟨same, -⟩ | ⟨up, -⟩ | ⟨entry, found, short, ordinary, down, -⟩
  · exact ⟨readable', inside', outer', by rw [follow, if_pos same]⟩
  · rw [up, follow, if_neg (by decide), if_pos rfl]
    cases now with
    | top => exact ⟨true, top', [], rfl⟩
    | down trail found => exact ⟨_, _, _, rfl⟩
  · -- The folder that the step enters is a folder still.
    rw [stackStep, if_neg ordinary, if_neg down] at led
    obtain ⟨listed', below', led'⟩ := Folder.descend_folder_of_write written led
    rw [List.reverse_cons, DiskEntry.descend_append, now.descend, Option.bind_some,
      DiskEntry.descend] at led'
    obtain ⟨entry', found', same⟩ := Option.bind_eq_some_iff.1 led'
    rw [DiskEntry.descend, Option.some.injEq] at same
    rw [follow, if_neg ordinary, if_neg down, if_neg (by omega), found', same]
    exact ⟨listed', below', _, rfl⟩

theorem foldlM_of_write {contents : FileContents} {names : List String} {top' : Folder}
    (written : top.write contents names = .ok top') {segments : List String}
    {readable readable' : Bool} {inside inside' : Folder} {outer outer' : List DiskEntry}
    (before : Trail top stack (.folder readable inside :: outer))
    (now : Trail top' stack (.folder readable' inside' :: outer')) {listed : Bool} {below : Folder}
    {around : List DiskEntry}
    (steps : segments.foldlM follow (.folder readable inside :: outer) =
      .ok (.folder listed below :: around)) :
    ∃ listed' below' around', segments.foldlM follow (.folder readable' inside' :: outer') =
      .ok (.folder listed' below' :: around') := by
  induction segments generalizing stack readable readable' inside inside' outer outer' with
  | nil => exact ⟨readable', inside', outer', rfl⟩
  | cons first rest ih =>
      obtain ⟨between, step, steps⟩ := foldlM_cons_iff.1 steps
      obtain ⟨_, _, _, rfl⟩ := exists_folder_of_foldlM steps
      obtain ⟨_, _, _, step'⟩ := follow_of_write written before now step
      obtain ⟨listed', below', around', steps'⟩ :=
        ih (before.follow step) (now.follow step') steps
      exact ⟨listed', below', around', foldlM_cons_iff.2 ⟨_, step', steps'⟩⟩

/-- A file can be written where the segments before its name lead to a folder. -/
theorem writable_cases {segments : List String} (h : disk.writable segments = .ok ()) :
    ∃ front name, segments = front ++ [name] ∧
      (∃ readable inside, disk.walk front = .ok (.folder readable inside)) ∧
      ¬(name = "" ∨ name = ".") ∧ name ≠ ".." ∧ name.utf8ByteSize ≤ nameLimit := by
  rw [writable] at h
  split at h
  · cases h
  · cases h
  · rename_i readable inside led
    split at h
    · cases h
    · cases h
    · cases h
    · rename_i name notDot notDots last
      split at h
      · cases h
      · rename_i long
        split at h
        · cases h
        · rename_i short
          -- No separator stands at the end, so nothing was taken away there.
          have kept : segments.reverse.dropWhile (· = "") = segments.reverse := by
            refine (List.dropWhile_suffix _).eq_of_length ?_
            have fewer := (List.dropWhile_suffix (· = "") (l := segments.reverse)).length_le
            simp only [List.length_reverse, Nat.not_lt] at long fewer ⊢
            omega
          rw [kept, List.reverse_reverse] at led last
          obtain ⟨front, rfl⟩ := List.getLast?_eq_some_iff.1 last
          rw [List.dropLast_concat] at led
          have named : name ≠ "" := by
            rintro rfl
            have lengths := congrArg List.length kept
            have fewer := (List.dropWhile_suffix (· = "") (l := front.reverse)).length_le
            simp at lengths fewer
            omega
          exact ⟨front, name, rfl, ⟨readable, inside, led⟩, by simp_all, by simp_all, by omega⟩

/-- What a write comes to. -/
theorem write_cases {text : String} (written : disk.write path text = .ok saved) :
    textError? path = none ∧ disk.writable (disk.current.join path).segments = .ok () ∧
      ∃ contents top', contents.text = some text ∧
        disk.top.write contents (disk.namesTo path) = .ok top' ∧
        saved.top = top' ∧ saved.current = disk.current := by
  rw [write, writeContents] at written
  cases fits : textError? path with
  | some error => rw [fits] at written; cases written
  | none =>
      rw [fits] at written
      cases may : disk.writable (disk.current.join path).segments with
      | error error => rw [may] at written; cases written
      | ok _ =>
          rw [may] at written
          cases made : disk.top.write ⟨some text, text.utf8ByteSize, disk.now⟩ (disk.namesTo path) with
          | error error => rw [made] at written; cases written
          | ok top' =>
              rw [made] at written
              rw [← Except.ok.inj written]
              exact ⟨rfl, rfl, _, top', rfl, made, rfl, rfl⟩

/-- **What was written is found where it was written to.** -/
theorem resolve_of_write {text : String} (written : disk.write path text = .ok saved) :
    ∃ contents, contents.text = some text ∧ saved.resolve path = .ok (.file contents) := by
  obtain ⟨fits, may, contents, _, same, made, rfl, current⟩ := write_cases written
  obtain ⟨front, name, whole, ⟨readable, inside, led⟩, ordinary, down, short⟩ := writable_cases may
  refine ⟨contents, same, ?_⟩
  obtain ⟨outer, steps⟩ := walk_iff.1 led
  obtain ⟨readable', inside', outer', steps'⟩ := foldlM_of_write made .top .top steps
  -- The names of the write are those of the folder and then the name of the file.
  have names : disk.namesTo path = (front.foldl stackStep []).reverse ++ [name] := by
    rw [namesTo_eq, whole, List.foldl_append, List.foldl_cons, List.foldl_nil, stackStep,
      if_neg ordinary, if_neg down, List.reverse_cons]
  rw [names] at made
  have found := Folder.descend_write made true
  have now := (Trail.top.foldlM steps').descend
  rw [DiskEntry.descend_append, now, Option.bind_some, DiskEntry.descend] at found
  obtain ⟨entry, there, same⟩ := Option.bind_eq_some_iff.1 found
  rw [DiskEntry.descend, Option.some.injEq] at same
  rw [resolve, fits, current, whole]
  dsimp only
  have entered : follow (.folder readable' inside' :: outer') name =
      .ok (.file contents :: .folder readable' inside' :: outer') := by
    rw [follow, if_neg ordinary, if_neg down, if_neg (by omega), there, same]
  exact walk_iff.2 ⟨_, foldlM_append_iff.2 ⟨_, steps', by rw [foldlM_singleton, entered]⟩⟩

/-! ## Folders -/

/-- A path can be looked up if one that continues its text can. -/
theorem textError?_of_append {path longer : Path} {more : String}
    (continues : longer.toString = path.toString ++ more) (written : path.toString ≠ "")
    (fits : textError? longer = none) : textError? path = none := by
  simp only [textError?, continues, String.toList_append, List.contains_append, Bool.or_eq_true,
    String.utf8ByteSize_append] at fits ⊢
  split at fits
  · cases fits
  · rename_i clean
    rw [not_or] at clean
    split at fits
    · cases fits
    · rw [if_neg clean.1, if_neg (by omega), if_neg written]

/-- A path and what lies in it are looked up from the same place. -/
theorem exists_join_eq (base : Path) {path other : Path}
    (same : path.isAbsolute = other.isAbsolute) :
    ∃ front, (base.join path).segments = front ++ path.segments ∧
      (base.join other).segments = front ++ other.segments := by
  rw [Path.join, Path.join, same]
  split
  · exact ⟨[], rfl, rfl⟩
  · split <;> exact ⟨_, rfl, rfl⟩

theorem entry?_rootDirectory (disk : Disk) :
    disk.entry? ⟨["", ""]⟩ = some (.folder true disk.top) := by
  have absolute : Path.isAbsolute ⟨["", ""]⟩ = true := by decide
  have fits : textError? ⟨["", ""]⟩ = none := by decide
  unfold entry?
  rw [resolve, fits, Path.join, absolute]
  rfl

theorem entry?_of_resolve {entry : DiskEntry} (led : disk.resolve path = .ok entry) :
    disk.entry? path = some entry := by
  unfold entry?
  rw [led]
  rfl

theorem resolve_of_pathExists (there : disk.pathExists path = true) :
    ∃ entry, disk.resolve path = .ok entry := by
  rw [pathExists, entry?] at there
  cases led : disk.resolve path with
  | error error => rw [led] at there; cases there
  | ok entry => exact ⟨entry, rfl⟩

/-- The empty path leads nowhere. -/
theorem components_ne_nil_of_pathExists (normal : path.normalize = path)
    (there : disk.pathExists path = true) : path.components ≠ [] := by
  intro blank
  have written := Path.ofComponents_components normal
  rw [blank] at written
  obtain ⟨entry, led⟩ := resolve_of_pathExists there
  have nowhere : textError? (.ofComponents []) = some .notFound := by decide
  rw [← written, resolve, nowhere] at led
  cases led

/-- A step of a look-up into a folder finds the name there. -/
theorem find?_of_follow {readable : Bool} {inside : Folder} {outer around : List DiskEntry}
    {name : String} {entry : DiskEntry} (inner : (Component.named name).IsInner)
    (step : follow (.folder readable inside :: outer) name = .ok (entry :: around)) :
    inside.find? name = some entry := by
  rcases follow_cases step with ⟨blank | dot, -⟩ | ⟨up, -⟩ | ⟨_, found, -, -, -, same⟩
  · exact absurd blank inner.1
  · exact absurd dot inner.2.1
  · exact absurd up inner.2.2
  · rw [found, (List.cons.inj same).1]

/-- **Where something lies, there is a folder**, which holds it under its name. -/
theorem exists_folder_of_resolve {row : List Component} {last : Component} {entry : DiskEntry}
    (form : Path.NormalForm (row ++ [last])) (nonempty : row ≠ [])
    (led : disk.resolve (.ofComponents (row ++ [last])) = .ok entry) :
    ∃ readable inside, disk.entry? (.ofComponents row) = some (.folder readable inside) ∧
      ∀ name, last = .named name → inside.find? name = some entry := by
  have inner : last.IsInner := by
    obtain ⟨first, rest, rfl⟩ := List.exists_cons_of_ne_nil nonempty
    exact form.isNormalRow.2 last (List.mem_append_right rest List.mem_cons_self)
  -- The last step of the look-up goes from a folder to the entry.
  have ends : ∀ {front : List String}, disk.walk (front ++ [last.text]) = .ok entry →
      ∃ readable inside outer, front.foldlM follow [.folder true disk.top] =
          .ok (.folder readable inside :: outer) ∧
        ∀ name, last = .named name → inside.find? name = some entry := by
    intro front led
    obtain ⟨_, steps⟩ := walk_iff.1 led
    obtain ⟨between, steps, step⟩ := foldlM_append_iff.1 steps
    rw [foldlM_singleton] at step
    obtain ⟨readable, inside, outer, rfl⟩ := exists_folder_of_follow step
    refine ⟨readable, inside, outer, steps, ?_⟩
    rintro name rfl
    exact find?_of_follow inner step
  rw [resolve] at led
  split at led
  · cases led
  · rename_i fits
    by_cases root : row = [.root]
    · subst root
      have absolute : (Path.ofComponents ([.root] ++ [last])).isAbsolute = true := by
        rw [Path.isAbsolute, Path.components_ofComponents form.isNormalRow]
        rfl
      rw [Path.join, absolute, Bool.true_or, if_pos rfl] at led
      have step : disk.walk ([""] ++ [last.text]) = .ok entry := led
      obtain ⟨readable, inside, outer, steps, holds⟩ := ends step
      have top : [DiskEntry.folder true disk.top] = .folder readable inside :: outer :=
        Except.ok.inj steps
      obtain ⟨rfl, rfl⟩ := DiskEntry.folder.inj (List.cons.inj top).1
      exact ⟨_, _, disk.entry?_rootDirectory, holds⟩
    · have read' := Path.components_ofComponents form.front.isNormalRow
      have absolute := Path.isAbsolute_ofComponents_append form.isNormalRow form.front.isNormalRow
        nonempty
      have continues := Path.toString_ofComponents_concat form.front.normalize_ofComponents nonempty
        root last
      obtain ⟨front, below, here⟩ := exists_join_eq disk.current absolute
      rw [below, Path.segments_ofComponents_append nonempty root, List.map_singleton,
        ← List.append_assoc] at led
      obtain ⟨readable, inside, outer, steps, holds⟩ := ends led
      have fits' := textError?_of_append continues (Path.toString_ne_empty (by rwa [read'])) fits
      refine ⟨readable, inside, entry?_of_resolve ?_, holds⟩
      rw [resolve, fits', here]
      exact walk_iff.2 ⟨outer, steps⟩

/-- **On the way to where something lies, there are folders**, and each holds the next name. -/
theorem exists_folder_of_row {front back : List Component} {next : Component}
    (form : Path.NormalForm (front ++ next :: back)) (nonempty : front ≠ [])
    (there : disk.pathExists (.ofComponents (front ++ next :: back)) = true) :
    ∃ readable inside, disk.entry? (.ofComponents front) = some (.folder readable inside) ∧
      ∀ name, next = .named name → (inside.find? name).isSome = true := by
  induction back using List.reverseRecOn with
  | nil =>
      obtain ⟨entry, led⟩ := resolve_of_pathExists there
      obtain ⟨readable, inside, found, holds⟩ := exists_folder_of_resolve form nonempty led
      exact ⟨readable, inside, found, fun name same => by rw [holds name same]; rfl⟩
  | append_singleton back last ih =>
      have whole : front ++ next :: (back ++ [last]) = (front ++ next :: back) ++ [last] := by simp
      rw [whole] at form there
      obtain ⟨entry, led⟩ := resolve_of_pathExists there
      obtain ⟨_, _, found, -⟩ := exists_folder_of_resolve form (by simp) led
      exact ih form.front (by rw [pathExists, found]; rfl)

/-- What a child of a folder is: an entry of it under its name. -/
theorem exists_folder_of_resolve_child {folder : Path} {name : String} {entry : DiskEntry}
    (normal : folder.normalize = folder) (nonempty : folder.components ≠ [])
    (inner : (Component.named name).IsInner)
    (led : disk.resolve (folder.child name) = .ok entry) :
    ∃ readable inside, disk.entry? folder = some (.folder readable inside) ∧
      inside.find? name = some entry := by
  have form := Path.normalForm_of_normalize_eq normal
  have down := Path.ofComponents_concat form.isNormalRow name
  rw [Path.ofComponents_components normal] at down
  rw [← down] at led
  obtain ⟨readable, inside, found, holds⟩ :=
    exists_folder_of_resolve (form.concat inner) nonempty led
  rw [Path.ofComponents_components normal] at found
  exact ⟨readable, inside, found, holds name rfl⟩

theorem pathExists_of_isFile (isFile : disk.isFile path = true) : disk.pathExists path = true := by
  rw [Disk.isFile] at isFile
  split at isFile
  · rename_i led
    rw [pathExists, led]
    rfl
  · cases isFile

theorem isFolder_of_list? {names : List String} (listed : disk.list? path = some names) :
    disk.isFolder path = true := by
  rw [list?] at listed
  split at listed
  · rename_i led
    rw [isFolder, led]
  · cases listed

/-! ## Well-named disks -/

/-- Whether all names on the disk are ordinary. -/
def isWellNamed (disk : Disk) : Bool := disk.top.isWellNamed

/-- One step of a look-up among well-named entries. -/
theorem wellNamed_of_follow (h : ∀ entry ∈ trail, entry.isWellNamed = true)
    (step : follow trail segment = .ok after) :
    '/' ∉ segment.toList ∧ ∀ entry ∈ after, entry.isWellNamed = true := by
  obtain ⟨readable, inside, outer, rfl⟩ := exists_folder_of_follow step
  rcases follow_cases step with ⟨rfl | rfl, rfl⟩ | ⟨rfl, rfl⟩ | ⟨entry, found, -, -, -, rfl⟩
  · exact ⟨by decide, h⟩
  · exact ⟨by decide, h⟩
  · refine ⟨by decide, fun entry member => ?_⟩
    split at member
    · exact h entry member
    · exact h entry (List.mem_cons_of_mem _ member)
  · have named := Folder.find?_of_isWellNamed (h _ List.mem_cons_self) found
    refine ⟨not_mem_of_isOrdinaryName named.1, fun other member => ?_⟩
    rcases List.mem_cons.1 member with rfl | member
    · exact named.2
    · exact h other member

theorem wellNamed_of_foldlM (h : ∀ entry ∈ trail, entry.isWellNamed = true)
    {segments : List String} (steps : segments.foldlM follow trail = .ok after) :
    (∀ segment ∈ segments, '/' ∉ segment.toList) ∧ ∀ entry ∈ after, entry.isWellNamed = true := by
  induction segments generalizing trail with
  | nil =>
      rw [← Except.ok.inj steps]
      exact ⟨nofun, h⟩
  | cons first rest ih =>
      obtain ⟨between, step, steps⟩ := foldlM_cons_iff.1 steps
      obtain ⟨here, named⟩ := wellNamed_of_follow h step
      obtain ⟨later, ends⟩ := ih named steps
      refine ⟨fun segment listed => ?_, ends⟩
      rcases List.mem_cons.1 listed with rfl | listed
      · exact here
      · exact later segment listed

/-- What a row of segments leads to on a well-named disk. -/
theorem wellNamed_of_walk (h : disk.isWellNamed = true) {segments : List String} {entry : DiskEntry}
    (led : disk.walk segments = .ok entry) :
    (∀ segment ∈ segments, '/' ∉ segment.toList) ∧ entry.isWellNamed = true := by
  have start : ∀ entry ∈ [DiskEntry.folder true disk.top], entry.isWellNamed = true := by
    intro entry member
    rw [List.mem_singleton.1 member]
    exact h
  obtain ⟨outer, steps⟩ := walk_iff.1 led
  obtain ⟨slashless, ends⟩ := wellNamed_of_foldlM start steps
  exact ⟨slashless, ends entry List.mem_cons_self⟩

theorem wellNamed_of_found (h : disk.isWellNamed = true) {entry : DiskEntry}
    (led : disk.entry? path = some entry) : path.Slashless ∧ entry.isWellNamed = true := by
  have resolved : disk.resolve path = .ok entry := by
    unfold entry? at led
    cases resolved : disk.resolve path with
    | error error => rw [resolved] at led; cases led
    | ok other => rw [resolved] at led; rw [Option.some.inj led]
  rw [resolve] at resolved
  split at resolved
  · cases resolved
  · obtain ⟨slashless, named⟩ := wellNamed_of_walk h resolved
    refine ⟨fun segment listed => slashless segment ?_, named⟩
    rw [Path.join]
    split
    · exact listed
    · split
      · exact List.mem_append_right _ listed
      · exact List.mem_append_right _ listed

/-- **No segment of a path that leads somewhere holds a separator.** -/
theorem slashless_of_pathExists (h : disk.isWellNamed = true) (there : disk.pathExists path = true) :
    path.Slashless := by
  rw [pathExists, Option.isSome_iff_exists] at there
  obtain ⟨entry, led⟩ := there
  exact (wellNamed_of_found h led).1

theorem slashless_of_isFolder (h : disk.isWellNamed = true) (folder : disk.isFolder path = true) :
    path.Slashless := by
  refine slashless_of_pathExists h ?_
  rw [isFolder] at folder
  split at folder
  · rename_i led
    rw [pathExists, led]
    rfl
  · cases folder

/-- The names that a folder lists are ordinary. -/
theorem isOrdinaryName_of_list? (h : disk.isWellNamed = true) {names : List String}
    (listed : disk.list? path = some names) {name : String} (member : name ∈ names) :
    isOrdinaryName name = true := by
  rw [list?] at listed
  split at listed
  · rename_i led
    rw [← Option.some.inj listed] at member
    exact Folder.isOrdinaryName_of_mem_names (wellNamed_of_found h led).2 member
  · cases listed

/-- **What lies below a folder lies at or below one of the entries that the folder lists.** -/
theorem exists_child_of_isBelow {folder file : Path} {names : List String}
    (listed : disk.list? folder = some names) (normal : folder.normalize = folder)
    (nonempty : folder.components ≠ []) (normalFile : file.normalize = file)
    (isFile : disk.isFile file = true) (below : file.IsBelow folder) :
    ∃ name ∈ names, file.IsBelow (folder.child name) := by
  obtain ⟨readable, inside, found, rfl⟩ : ∃ readable inside,
      disk.entry? folder = some (.folder readable inside) ∧ inside.names = names := by
    rw [list?] at listed
    split at listed
    · rename_i inside found
      exact ⟨true, inside, found, Option.some.inj listed⟩
    · cases listed
  obtain ⟨row, direct, whole⟩ := below
  cases row with
  | nil =>
      rw [List.append_nil] at whole
      have same : file = folder := by
        rw [← Path.ofComponents_components normalFile, whole, Path.ofComponents_components normal]
      rw [same, Disk.isFile, found] at isFile
      cases isFile
  | cons first row =>
      have inner : first.IsInner := by
        refine file.isInner_of_mem_tail first ?_
        obtain ⟨start, rest, begins⟩ := List.exists_cons_of_ne_nil nonempty
        rw [whole, begins]
        exact List.mem_append_right rest List.mem_cons_self
      have form := Path.normalForm_of_normalize_eq normalFile
      have there : disk.pathExists (.ofComponents file.components) = true := by
        rw [Path.ofComponents_components normalFile]
        exact pathExists_of_isFile isFile
      rw [whole] at form there
      obtain ⟨_, inside', found', holds⟩ := exists_folder_of_row form nonempty there
      rw [Path.ofComponents_components normal, found] at found'
      obtain ⟨rfl, rfl⟩ := DiskEntry.folder.inj (Option.some.inj found')
      cases first with
      | root => exact absurd inner id
      | here => exact absurd inner id
      | up => exact absurd rfl (direct .up List.mem_cons_self).2
      | named name =>
          refine ⟨name, Folder.mem_names_iff.2 (holds name rfl), row,
            fun c member => direct c (List.mem_cons_of_mem _ member), ?_⟩
          rw [whole, Path.components_child_of_inner folder inner, List.append_assoc]
          rfl

end Disk

end SvServer
