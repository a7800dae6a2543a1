import SvServer.Unit.Basic

/-!
What every compiled unit read, indexed in both directions: from a root to its files, and from a file
to the roots that read it. The same for include names that led to no file.
-/

namespace SvServer.Include

/-- Sets of roots by include name. -/
abbrev NameMap (β : Type) := Std.ExtTreeMap String β compare

/-- Four tables, of which two are the inverses of the other two. -/
structure ReadIndex where
  /-- Files read, by root -/
  reads : PathMap PathSet
  /-- Roots, by a file they read -/
  readers : PathMap PathSet
  /-- Roots, by an include name they miss -/
  waiting : NameMap PathSet
  /-- Missing include names, by root; roots that miss none are left out -/
  missing : PathMap TextSet

namespace ReadIndex

def empty : ReadIndex := ⟨∅, ∅, ∅, ∅⟩

/-- Roots whose last compile read the file. -/
def readersOf (index : ReadIndex) (path : Path) : PathSet := (index.readers[path]?).getD ∅

/-- Whether some root reads the file. -/
def isRead (index : ReadIndex) (path : Path) : Bool := index.readers.contains path

/-- Files that a root read, if it was recorded. -/
def filesOf? (index : ReadIndex) (root : Path) : Option PathSet := index.reads[root]?

/-- Roots with a missing include that the file could satisfy: the file ends in the missing name. -/
def waitersFor (index : ReadIndex) (path : Path) : PathSet :=
  index.waiting.toList.foldl (fun roots (name, waiting) =>
    if path.endsWith (Path.ofString name) then roots.join waiting else roots) ∅

/-- Removes a root from a set of roots; an empty set is not stored. -/
def dropRoot (sets : Option PathSet) (root : Path) : Option PathSet :=
  match sets with
  | none => none
  | some roots => if (roots.erase root).isEmpty then none else some (roots.erase root)

/-- Forgets a root. -/
def forget (index : ReadIndex) (root : Path) : ReadIndex :=
  let files := (index.reads[root]?).getD ∅
  let names := (index.missing[root]?).getD ∅
  { reads := index.reads.erase root
    readers :=
      files.toList.foldl (fun table file => table.alter file (dropRoot · root)) index.readers
    waiting :=
      names.toList.foldl (fun table name => table.alter name (dropRoot · root)) index.waiting
    missing := index.missing.erase root }

/-- Files that a root read; none for a root that was not recorded. -/
def filesOf (index : ReadIndex) (root : Path) : PathSet := (index.reads[root]?).getD ∅

/-- Adds a root to a set of roots. -/
def addRoot (sets : Option PathSet) (root : Path) : Option PathSet :=
  some ((sets.getD ∅).insert root)

/-- Records what a root read and missed, in place of what was recorded before. -/
def record (index : ReadIndex) (root : Path) (files : PathSet) (names : TextSet) : ReadIndex :=
  let cleared := index.forget root
  { reads := cleared.reads.insert root files
    readers :=
      files.toList.foldl (fun table file => table.alter file (addRoot · root)) cleared.readers
    waiting :=
      names.toList.foldl (fun table name => table.alter name (addRoot · root)) cleared.waiting
    missing := if names.isEmpty then cleared.missing else cleared.missing.insert root names }

end ReadIndex

end SvServer.Include
