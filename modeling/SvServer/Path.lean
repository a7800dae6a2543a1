import Std.Data.ExtTreeMap.Basic
import Std.Data.ExtTreeMap.Lemmas
import Std.Data.ExtTreeSet.Lemmas

/-!
File paths. A path keeps the text that it was written as, and is read as a row of components.

Two spellings that differ only in repeated separators, in interior `.` segments or in a trailing
separator have the same components. They count as the same path: paths are compared, and looked up
in sets and tables, by their components alone. What is shown of a path is its spelling. Where a set
or a table meets a path that it holds in another spelling, it keeps the one that it has.
-/

namespace SvServer

/-- One step of a path, in the order in which steps compare. -/
inductive Component where
  /-- The root directory, only ever the first component. -/
  | root
  /-- A leading `.` of a relative path. -/
  | here
  /-- `..` -/
  | up
  /-- An ordinary file or directory name. -/
  | named (name : String)
deriving DecidableEq, Repr, Inhabited

namespace Component

/-- The place of each kind of component in the order. -/
def rank : Component → Nat
  | root => 0
  | here => 1
  | up => 2
  | named _ => 3

/-- The text of a component; the root directory shows as its separator. -/
def text : Component → String
  | root => "/"
  | here => "."
  | up => ".."
  | named name => name

instance : Ord Component := ⟨compareLex (compareOn rank) (compareOn text)⟩

/-- Components compare by kind, then by text. -/
theorem compare_def (a b : Component) :
    compare a b = compareLex (compareOn rank) (compareOn text) a b := rfl

instance : Std.TransOrd Component :=
  inferInstanceAs (Std.TransCmp (compareLex (compareOn rank) (compareOn text)))

/-- Kind and text determine a component. -/
theorem eq_of_rank_of_text {a b : Component} (h : a.rank = b.rank) (h' : a.text = b.text) :
    a = b := by
  cases a <;> cases b <;> simp_all [rank, text]

instance : Std.LawfulEqOrd Component where
  compare_self := Std.ReflCmp.compare_self
  eq_of_compare {a b} h := by
    rw [compare_def, compareLex, Ordering.then_eq_eq] at h
    exact eq_of_rank_of_text (Std.LawfulEqCmp.eq_of_compare h.1) (Std.LawfulEqCmp.eq_of_compare h.2)

/-- The component that a segment stands for. Empty segments and `.` stand for none. -/
def ofSegment? (segment : String) : Option Component :=
  if segment = "" ∨ segment = "." then none
  else if segment = ".." then some .up
  else some (.named segment)

end Component

/-- A path as it is written: the segments of its text, between separators. -/
structure Path where
  segments : List String
deriving Repr, Inhabited

namespace Path

/-! ## Text -/

/-- The pieces between separators. -/
def splitChars : List Char → List (List Char)
  | [] => [[]]
  | c :: rest =>
    if c = '/' then [] :: splitChars rest
    else match splitChars rest with
      | [] => [[c]]
      | first :: more => (c :: first) :: more

/-- Reads a path from its text. -/
def ofString (text : String) : Path := ⟨(splitChars text.toList).map String.ofList⟩

/-- The text of a path, as it was written. -/
def toString (path : Path) : String := String.intercalate "/" path.segments

instance : ToString Path := ⟨Path.toString⟩

/-! ## Components -/

/-- What a path stands for, from the outermost component to the innermost. A separator at the start
stands for the root directory, and a `.` at the start for the current one. -/
def components (path : Path) : List Component :=
  match path.segments with
  | "" :: next :: more => .root :: (next :: more).filterMap Component.ofSegment?
  | "." :: more => .here :: more.filterMap Component.ofSegment?
  | segments => segments.filterMap Component.ofSegment?

/-- The plain spelling of components: one separator between two of them. -/
def ofComponents : List Component → Path
  | [] => ⟨[""]⟩
  | [.root] => ⟨["", ""]⟩
  | .root :: rest => ⟨"" :: rest.map Component.text⟩
  | components => ⟨components.map Component.text⟩

/-! ## Comparison -/

instance : Ord Path := ⟨compareOn components⟩

instance : BEq Path := ⟨fun a b => a.components == b.components⟩

instance : Std.TransOrd Path :=
  inferInstanceAs (Std.TransCmp (compareOn components))

/-- Paths are the same when their components are. -/
theorem beq_iff {a b : Path} : (a == b) = true ↔ a.components = b.components := by
  change (a.components == b.components) = true ↔ _
  exact beq_iff_eq

/-- Paths compare as equal when their components are equal. -/
theorem compare_eq_iff {a b : Path} : compare a b = .eq ↔ a.components = b.components := by
  change compare a.components b.components = .eq ↔ _
  exact Std.LawfulEqCmp.compare_eq_iff_eq

instance : Std.LawfulBEqOrd Path where
  compare_eq_iff_beq := compare_eq_iff.trans beq_iff.symm

instance : EquivBEq Path where
  rfl := beq_iff.2 rfl
  symm h := beq_iff.2 (beq_iff.1 h).symm
  trans h h' := beq_iff.2 ((beq_iff.1 h).trans (beq_iff.1 h'))

/-! ## Parts -/

/-- Absolute paths start at the root directory. -/
def isAbsolute (path : Path) : Bool :=
  path.components.head? == some .root

/-- The path without its last component; the root directory and the empty path have none. -/
def parent? (path : Path) : Option Path :=
  match path.components.getLast? with
  | none => none
  | some .root => none
  | some _ => some (ofComponents path.components.dropLast)

/-- The directory that a file lies in. -/
def directory (path : Path) : Path :=
  path.parent?.getD (ofComponents [])

/-- The last component, when it is an ordinary name. -/
def fileName? (path : Path) : Option String :=
  match path.components.getLast? with
  | some (.named name) => some name
  | _ => none

/-- What a person reads as the name of the file: its last name, or else the whole path. -/
def shortName (path : Path) : String :=
  path.fileName?.getD path.toString

/-! ## Combination -/

/-- A path read from inside a directory, written behind it. An absolute path stands for itself. -/
def join (base path : Path) : Path :=
  if path.isAbsolute || base.segments == [""] then path
  else if base.segments.getLast? == some "" then ⟨base.segments.dropLast ++ path.segments⟩
  else ⟨base.segments ++ path.segments⟩

/-- A child of a directory. -/
def child (path : Path) (name : String) : Path := path.join ⟨[name]⟩

/-- Whether the path is the ancestor or lies beneath it. -/
def isUnder (path ancestor : Path) : Bool :=
  ancestor.components.isPrefixOf path.components

/-- Whether the last components of the path are those of the other. -/
def endsWith (path tail : Path) : Bool :=
  tail.components.isSuffixOf path.components

/-- Lying beneath a path means that the components begin with those of that path. -/
theorem isUnder_iff {path ancestor : Path} :
    path.isUnder ancestor = true ↔ ancestor.components <+: path.components := by
  simp [isUnder]

@[simp] theorem isUnder_self (path : Path) : path.isUnder path = true := by
  simp [isUnder_iff]

/-- What lies beneath a path lies beneath all that the path lies beneath. -/
theorem isUnder_trans {a b c : Path} (h : a.isUnder b = true) (h' : b.isUnder c = true) :
    a.isUnder c = true := by
  rw [isUnder_iff] at *
  exact h'.trans h

/-- Whether some path of the list covers the given one. -/
def isCoveredBy (path : Path) (covers : List Path) : Bool :=
  covers.any fun cover => path.isUnder cover

end Path

/-! ## Sets and tables of paths -/

/-- A finite set of paths, listed in path order. -/
abbrev PathSet := Std.ExtTreeSet Path compare

/-- A finite table keyed by paths. -/
abbrev PathMap (β : Type) := Std.ExtTreeMap Path β compare

namespace PathSet

/-- Adds paths one by one. A path that the set holds already keeps its spelling. -/
def extend (set : PathSet) (paths : List Path) : PathSet :=
  paths.foldl (fun set path => set.insert path) set

/-- Adds the paths of another set. -/
def join (set other : PathSet) : PathSet := extend set other.toList

/-- The set of the paths of a list. Of several spellings of a path, the last one counts. -/
def collect (paths : List Path) : PathSet := extend ∅ paths.reverse

/-- A path is in an extended set if it was there before or is among those that were added. -/
theorem contains_extend {set : PathSet} {paths : List Path} {path : Path} :
    (extend set paths).contains path = (set.contains path || paths.contains path) := by
  induction paths generalizing set with
  | nil => simp [extend]
  | cons first rest ih =>
    have step : extend set (first :: rest) = extend (set.insert first) rest := rfl
    rw [step, ih, Std.ExtTreeSet.contains_insert, List.contains_cons]
    have same : (compare first path == .eq) = (path == first) := by
      rw [Bool.eq_iff_iff, beq_iff_eq, Path.compare_eq_iff, Path.beq_iff]
      exact eq_comm
    rw [same, Bool.or_comm (path == first), Bool.or_assoc]

/-- The paths of a list are the members of its set. -/
theorem contains_collect {paths : List Path} {path : Path} :
    (collect paths).contains path = paths.contains path := by
  rw [collect, contains_extend]
  simp [List.contains_eq_any_beq]

end PathSet

/-- Stores a value under a path. A path that the table holds already keeps its spelling. -/
def PathMap.put {β : Type} (table : PathMap β) (path : Path) (value : β) : PathMap β :=
  table.insert (table.getKeyD path path) value

end SvServer
