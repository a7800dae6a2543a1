import Mathlib.Data.List.Basic
import SvServer.Proofs.Disk
import SvServer.Proofs.Include.Meaning

/-!
# Where a path leads

Without links, a path can be walked on paper: a name leads down, `..` leads back up, and at the top
it stays there. The normal form of an absolute path leads to the same place and holds no `.`; a `..`
is left in it only for each time that the walk is told to go up from the top. So two paths have one
normal form exactly when they lead to one place and are told so equally often, and among paths that
never are, lying beneath one another can be read off the normal forms.
-/

namespace SvServer

namespace Path

/-- One step of a walk, the names so far innermost first. At the top `..` leads nowhere. -/
def walkStep (place : List String) : Component → List String
  | .root => []
  | .here => place
  | .up => place.tail
  | .named name => name :: place

/-- The names that lead from the top to where a path leads. -/
def location (path : Path) : List String := (path.components.foldl walkStep []).reverse

/-- How often a walk is told to go up from the top. -/
def climbsFrom : List String → List Component → Nat
  | _, [] => 0
  | [], .up :: rest => climbsFrom [] rest + 1
  | place, component :: rest => climbsFrom (walkStep place component) rest

@[inherit_doc climbsFrom]
def climbs (path : Path) : Nat := climbsFrom [] path.components

/-! ## Normal forms of absolute paths -/

/-- What is kept of a path that leads to a place: its names, and beneath them a `..` for every time
that it was told to go up from the top. -/
def keptAt (place : List String) (above : Nat) : List Component :=
  place.map .named ++ List.replicate above .up ++ [.root]

/-- Going up from the top is kept. -/
theorem normalizeStep_keptAt_up (above : Nat) :
    normalizeStep (keptAt [] above) .up = keptAt [] (above + 1) := by
  cases above with
  | zero => rfl
  | succ above => rfl

/-- Every other step changes the names alone. -/
theorem normalizeStep_keptAt {place : List String} {component : Component}
    (inner : component.IsInner) (below : component = .up → place ≠ []) (above : Nat) :
    normalizeStep (keptAt place above) component = keptAt (walkStep place component) above := by
  cases component with
  | root => exact absurd inner id
  | here => exact absurd inner id
  | named name => rfl
  | up =>
      obtain ⟨name, outer, rfl⟩ := List.exists_cons_of_ne_nil (below rfl)
      rfl

/-- **Normalising goes along with the walk.** -/
theorem foldl_normalizeStep_keptAt {row : List Component} (inner : ∀ c ∈ row, c.IsInner)
    (place : List String) (above : Nat) : row.foldl normalizeStep (keptAt place above) =
      keptAt (row.foldl walkStep place) (above + climbsFrom place row) := by
  fun_induction climbsFrom place row generalizing above with
  | case1 place => rfl
  | case2 rest ih =>
      rw [List.foldl_cons, List.foldl_cons, normalizeStep_keptAt_up,
        ih (fun c member => inner c (List.mem_cons_of_mem _ member)), Nat.add_right_comm]
      rfl
  | case3 place component rest notUp ih =>
      have below : component = .up → place ≠ [] := fun up top => notUp top up
      rw [List.foldl_cons, List.foldl_cons,
        normalizeStep_keptAt (inner component List.mem_cons_self) below,
        ih fun c member => inner c (List.mem_cons_of_mem _ member)]

/-- An absolute path is the root directory and steps inside of it. -/
theorem exists_components_of_isAbsolute {path : Path} (absolute : path.isAbsolute = true) :
    ∃ row, path.components = .root :: row ∧ ∀ c ∈ row, c.IsInner := by
  have inner := path.isInner_of_mem_tail
  rw [isAbsolute, beq_iff_eq] at absolute
  obtain ⟨row, whole⟩ := List.head?_eq_some_iff.1 absolute
  exact ⟨row, whole, fun c member => inner c (by rwa [whole])⟩

/-- **The normal form of an absolute path**: the root directory, a `..` for every time that the path
goes up from the top, and the names that lead to its place. -/
theorem components_normalize_of_isAbsolute {path : Path} (absolute : path.isAbsolute = true) :
    path.normalize.components =
      .root :: (List.replicate path.climbs .up ++ path.location.map .named) := by
  obtain ⟨row, whole, inner⟩ := exists_components_of_isAbsolute absolute
  have folded := foldl_normalizeStep_keptAt inner [] 0
  have kept : path.components.foldl normalizeStep [] =
      keptAt (path.components.foldl walkStep []) path.climbs := by
    rw [Nat.zero_add] at folded
    rw [climbs, whole]
    exact folded
  rw [components_normalize, kept, keptAt, location]
  simp

/-! ## The place of a normal form -/

theorem foldl_walkStep_named (names place : List String) :
    (names.map Component.named).foldl walkStep place = names.reverse ++ place := by
  induction names generalizing place with
  | nil => rfl
  | cons first rest ih => simp [walkStep, ih]

/-- Going up from the top leads to the top. -/
theorem foldl_walkStep_up (times : Nat) :
    (List.replicate times Component.up).foldl walkStep [] = [] := by
  induction times with
  | zero => rfl
  | succ times ih => exact ih

/-- **The normal form leads to the same place.** -/
theorem location_normalize {path : Path} (absolute : path.isAbsolute = true) :
    path.normalize.location = path.location := by
  rw [location, components_normalize_of_isAbsolute absolute, List.foldl_cons, List.foldl_append,
    walkStep, foldl_walkStep_up, foldl_walkStep_named, List.append_nil, List.reverse_reverse]

/-- A `..` is left exactly where the path goes up from the top. -/
theorem up_not_mem_normalize_iff {path : Path} (absolute : path.isAbsolute = true) :
    .up ∉ path.normalize.components ↔ path.climbs = 0 := by
  simp [components_normalize_of_isAbsolute absolute]

/-- No `.` is left. -/
theorem here_not_mem_normalize {path : Path} (absolute : path.isAbsolute = true) :
    .here ∉ path.normalize.components := by
  simp [components_normalize_of_isAbsolute absolute]

/-! ## One place, one key -/

/-- A row of names behind some `..` splits in one way only. -/
theorem replicate_up_append_prefix_iff (above above' : Nat) (names names' : List String) :
    List.replicate above Component.up ++ names.map .named <+:
        List.replicate above' Component.up ++ names'.map .named ↔
      names <+: names' ∧ (above = above' ∨ names = [] ∧ above ≤ above') := by
  induction above generalizing above' with
  | zero =>
      cases above' with
      | zero =>
          have injective : Function.Injective Component.named := fun _ _ => Component.named.inj
          simp [List.prefix_map_iff_of_injective injective]
      | succ above' =>
          cases names with
          | nil => simp
          | cons name names => simp [List.replicate_succ]
  | succ above ih =>
      cases above' with
      | zero =>
          cases names' with
          | nil => simp [List.replicate_succ]
          | cons name names' => simp [List.replicate_succ]
      | succ above' => simp [List.replicate_succ, ih]

/-- **What lies beneath what**, read off two normal forms. -/
theorem isUnder_normalize_iff {path other : Path} (absolute : path.isAbsolute = true)
    (absolute' : other.isAbsolute = true) :
    path.normalize.isUnder other.normalize = true ↔ other.location <+: path.location ∧
      (other.climbs = path.climbs ∨ other.location = [] ∧ other.climbs ≤ path.climbs) := by
  rw [isUnder_iff, components_normalize_of_isAbsolute absolute,
    components_normalize_of_isAbsolute absolute', List.cons_prefix_cons,
    and_iff_right rfl, replicate_up_append_prefix_iff]

/-- **Two absolute paths have one normal form** when they lead to one place, and go up from the top
equally often. -/
theorem normalize_eq_iff {path other : Path} (absolute : path.isAbsolute = true)
    (absolute' : other.isAbsolute = true) :
    path.normalize = other.normalize ↔
      path.location = other.location ∧ path.climbs = other.climbs := by
  constructor
  · intro same
    have under : path.normalize.isUnder other.normalize = true := by rw [same, isUnder_self]
    have under' : other.normalize.isUnder path.normalize = true := by rw [same, isUnder_self]
    obtain ⟨below, climbs⟩ := (isUnder_normalize_iff absolute absolute').1 under
    obtain ⟨above, climbs'⟩ := (isUnder_normalize_iff absolute' absolute).1 under'
    exact ⟨above.eq_of_length_le below.length_le, by omega⟩
  · rintro ⟨place, climbs⟩
    refine (isPlain_normalize _).eq_of_beq (isPlain_normalize _) (beq_iff.2 ?_)
    rw [components_normalize_of_isAbsolute absolute, components_normalize_of_isAbsolute absolute',
      place, climbs]

/-! ## Paths that are read from a folder -/

/-- **A folder may be normalised before a path is read from it.** -/
theorem normalize_normalize_join {base path : Path} (absolute : base.isAbsolute = true)
    (written : path.segments ≠ []) :
    (base.normalize.join path).normalize = (base.join path).normalize := by
  cases relative : path.isAbsolute with
  | true =>
      have stands : ∀ folder : Path, folder.join path = path := by
        intro folder
        rw [join, relative, Bool.true_or, if_pos rfl]
      rw [stands, stands]
  | false =>
      have nonempty : ∀ {folder : Path}, folder.isAbsolute = true → folder.components ≠ [] := by
        intro folder absolute none
        rw [isAbsolute, none] at absolute
        exact Bool.false_ne_true absolute
      have absolute' : base.normalize.isAbsolute = true := by rwa [isAbsolute_normalize]
      have nothing : Stays [] := trivial
      refine (isPlain_normalize _).eq_of_beq (isPlain_normalize _) (beq_iff.2 ?_)
      rw [components_normalize, components_normalize,
        components_join _ relative written fun none => absurd none (nonempty absolute'),
        components_join _ relative written fun none => absurd none (nonempty absolute),
        List.foldl_append, List.foldl_append, components_normalize,
        (nothing.foldl base.components).foldl_reverse]

end Path

namespace Disk

variable {disk : Disk} {trail : List DiskEntry}

/-! ## Look-ups -/

/-- A segment that stands for no component leaves the place as it is, and every other one does what
its component does. -/
theorem foldl_stackStep_walkStep (segments place : List String) : segments.foldl stackStep place =
    (segments.filterMap Component.ofSegment?).foldl Path.walkStep place := by
  induction segments generalizing place with
  | nil => rfl
  | cons first rest ih =>
      rw [List.foldl_cons, stackStep, List.filterMap_cons, Component.ofSegment?]
      by_cases blank : first = "" ∨ first = "."
      · simp only [if_pos blank, ih]
      · by_cases up : first = ".."
        · simp only [if_neg blank, if_pos up, ih, List.foldl_cons, Path.walkStep]
        · simp only [if_neg blank, if_neg up, ih, List.foldl_cons, Path.walkStep]

/-- The place of a path is where a look-up of its segments from the top goes. -/
theorem location_eq (path : Path) :
    path.location = (path.segments.foldl stackStep []).reverse := by
  rw [foldl_stackStep_walkStep, Path.location, Path.components_eq_mark, List.foldl_append]
  unfold Path.mark
  split <;> rfl

/-- A name that a look-up goes into. -/
def IsName (segment : String) : Prop := ¬(segment = "" ∨ segment = ".") ∧ segment ≠ ".."

/-- **Where a look-up has come to, its names lead to**, without a way back. -/
theorem foldlM_follow_names {segments : List String}
    (steps : segments.foldlM follow [.folder true disk.top] = .ok trail) :
    (segments.foldl stackStep []).reverse.foldlM follow [.folder true disk.top] = .ok trail ∧
      ∀ name ∈ segments.foldl stackStep [], IsName name := by
  induction segments using List.reverseRecOn generalizing trail with
  | nil => exact ⟨steps, nofun⟩
  | append_singleton front last ih =>
      obtain ⟨between, walked, step⟩ := foldlM_append_iff.1 steps
      rw [foldlM_singleton] at step
      obtain ⟨led, names⟩ := ih walked
      rw [List.foldl_append, List.foldl_cons, List.foldl_nil, stackStep]
      generalize front.foldl stackStep [] = place at led names ⊢
      obtain ⟨readable, inside, outer, rfl⟩ := exists_folder_of_follow step
      rcases follow_cases step with ⟨same, rfl⟩ | ⟨up, rfl⟩ | ⟨entry, -, -, ordinary, down, -⟩
      · rw [if_pos same]
        exact ⟨led, names⟩
      · rw [up, if_neg (by decide), if_pos rfl]
        refine ⟨?_, fun name left => names name (List.mem_of_mem_tail left)⟩
        cases place with
        | nil =>
            -- At the top, going up stays there.
            obtain ⟨-, rfl⟩ := List.cons.inj (Except.ok.inj led)
            exact led
        | cons name below =>
            rw [List.reverse_cons] at led
            obtain ⟨before, led, entered⟩ := foldlM_append_iff.1 led
            rw [foldlM_singleton] at entered
            obtain ⟨_, _, _, rfl⟩ := exists_folder_of_follow entered
            obtain ⟨blank, up⟩ := names name List.mem_cons_self
            rcases follow_cases entered with ⟨same, -⟩ | ⟨same, -⟩ | ⟨_, -, -, -, -, whole⟩
            · exact absurd same blank
            · exact absurd same up
            · rw [(List.cons.inj whole).2]
              exact led
      · rw [if_neg ordinary, if_neg down, List.reverse_cons]
        refine ⟨foldlM_append_iff.2 ⟨_, led, by rw [foldlM_singleton, step]⟩, ?_⟩
        intro name kept
        rcases List.mem_cons.1 kept with rfl | kept
        · exact ⟨ordinary, down⟩
        · exact names name kept

/-- Going up from the top, and empty segments, lead nowhere. -/
theorem foldlM_follow_top {segments : List String} (idle : ∀ s ∈ segments, s = "" ∨ s = "..") :
    segments.foldlM follow [.folder true disk.top] = .ok [.folder true disk.top] := by
  induction segments with
  | nil => rfl
  | cons first rest ih =>
      refine foldlM_cons_iff.2 ⟨_, ?_, ih fun s member => idle s (List.mem_cons_of_mem _ member)⟩
      rcases idle first List.mem_cons_self with rfl | rfl
      · rfl
      · rfl

/-- **On every disk, what a path leads to its normal form leads to.** -/
theorem walk_normalize {path : Path} (absolute : path.isAbsolute = true) {entry : DiskEntry}
    (led : disk.walk path.segments = .ok entry) :
    disk.walk path.normalize.segments = .ok entry := by
  obtain ⟨outer, steps⟩ := walk_iff.1 led
  obtain ⟨straight, -⟩ := foldlM_follow_names steps
  rw [← location_eq] at straight
  refine walk_iff.2 ⟨outer, ?_⟩
  have row := Path.components_normalize_of_isAbsolute absolute
  rw [← Path.ofComponents_components (Path.normalize_normalize path), row]
  cases below : List.replicate path.climbs Component.up ++ path.location.map .named with
  | nil =>
      have nowhere : path.location = [] := by
        rw [List.append_eq_nil_iff, List.map_eq_nil_iff] at below
        exact below.2
      rw [nowhere] at straight
      rw [← straight]
      show ["", ""].foldlM follow _ = _
      exact foldlM_follow_top (by simp)
  | cons first rest =>
      have names : (path.location.map Component.named).map Component.text = path.location := by
        simp [Function.comp_def, Component.text]
      show ("" :: (first :: rest).map Component.text).foldlM follow _ = _
      rw [← below, List.map_append, names, ← List.cons_append]
      refine foldlM_append_iff.2 ⟨_, foldlM_follow_top ?_, straight⟩
      simp [Component.text]

end Disk

namespace Path

/-! ## What normalising does -/

/-- What the normal form of an absolute path is. -/
structure IsNormalised (path : Path) : Prop where
  absolute : path.normalize.isAbsolute = true
  noHere : .here ∉ path.normalize.components
  /-- A `..` is left only for going up from the top. -/
  noUp_iff : .up ∉ path.normalize.components ↔ path.climbs = 0
  /-- It leads to the same place, on paper and on every disk. -/
  place : path.normalize.location = path.location
  leads : ∀ (disk : Disk) (entry : DiskEntry), disk.walk path.segments = .ok entry →
    disk.walk path.normalize.segments = .ok entry
  idempotent : path.normalize.normalize = path.normalize
  /-- It may stand for the path when another one is read from there. -/
  join : ∀ relative : Path, relative.segments ≠ [] →
    (path.normalize.join relative).normalize = (path.join relative).normalize

/-- **Normal forms of absolute paths** name the same places, and they are one for each place and
number of times that a path goes up from the top. Where neither path does, the same place has the
same normal form, and what lies beneath what can be read off the normal forms. -/
theorem normalised_of_isAbsolute {path other : Path} (absolute : path.isAbsolute = true)
    (absolute' : other.isAbsolute = true) :
    path.IsNormalised ∧
      (path.normalize = other.normalize ↔
        path.location = other.location ∧ path.climbs = other.climbs) ∧
      (path.normalize.isUnder other.normalize = true ↔ other.location <+: path.location ∧
        (other.climbs = path.climbs ∨ other.location = [] ∧ other.climbs ≤ path.climbs)) := by
  refine ⟨?_, normalize_eq_iff absolute absolute', isUnder_normalize_iff absolute absolute'⟩
  exact {
    absolute := by rwa [isAbsolute_normalize]
    noHere := here_not_mem_normalize absolute
    noUp_iff := up_not_mem_normalize_iff absolute
    place := location_normalize absolute
    leads := fun disk entry => Disk.walk_normalize absolute
    idempotent := normalize_normalize path
    join := fun relative => normalize_normalize_join absolute }

/-- Two spellings of a file; one of them goes out of a folder and in again. -/
theorem normalised_of_detour :
    let path := ofString "/p/./rtl/../tb/top.sv"
    let other := ofString "/p/tb"
    path.isAbsolute = true ∧ other.isAbsolute = true ∧ path.IsNormalised ∧
      (path.normalize = other.normalize ↔
        path.location = other.location ∧ path.climbs = other.climbs) ∧
      (path.normalize.isUnder other.normalize = true ↔ other.location <+: path.location ∧
        (other.climbs = path.climbs ∨ other.location = [] ∧ other.climbs ≤ path.climbs)) :=
  ⟨by decide, by decide, normalised_of_isAbsolute (by decide) (by decide)⟩

/-- **A `..` at the top is left in place**: two spellings of one place have two normal forms, and a
file does not lie beneath its own folder. -/
theorem up_left_at_top :
    let path := ofString "/../p/top.sv"
    path.isAbsolute = true ∧ path.location = (ofString "/p/top.sv").location ∧
      .up ∈ path.normalize.components ∧
      path.normalize.components ≠ (ofString "/p/top.sv").normalize.components ∧
      path.normalize.isUnder (ofString "/p").normalize = false := by
  decide

end Path

end SvServer
