import SvServer.Project.Error
import SvServer.Project.Discovery

/-!
The files of one root, and which of them are included.

Exclusions are paths of files or folders under the root; a tracked file is included unless it lies
at or beneath one. Excluding a folder takes the exclusions beneath it in. Including a path beneath
an excluded folder splits that folder: everything in it but the way to the path is excluded on its
own.
-/

namespace SvServer

/-- How an operation changed the tracked files and their status. -/
structure FileChanges where
  /-- Files newly tracked -/
  added : PathSet
  /-- Files no longer on disk -/
  removed : PathSet
  /-- Files that became included, new ones too -/
  nowIncluded : PathSet
  /-- Files that were included and no longer are -/
  nowExcluded : PathSet
  /-- The limit that stopped the walk -/
  limitHit : Option Nat

namespace FileChanges

def empty : FileChanges := ⟨∅, ∅, ∅, ∅, none⟩

instance : Inhabited FileChanges := ⟨empty⟩

/-- Whether files came or went. -/
def movesFiles (delta : FileChanges) : Bool := !delta.added.isEmpty || !delta.removed.isEmpty

/-- Whether nothing changed. -/
def isEmpty (delta : FileChanges) : Bool :=
  !delta.movesFiles && delta.nowIncluded.isEmpty && delta.nowExcluded.isEmpty

/-- Folds a later delta in. For each file the later step counts; where one delta names a file on
both sides, being removed and being excluded count. -/
def merge (earlier later : FileChanges) : FileChanges where
  added := (earlier.added.join later.added) \ later.removed
  removed := PathSet.join (earlier.removed \ later.added) later.removed
  nowIncluded := (earlier.nowIncluded.join later.nowIncluded) \ later.nowExcluded
  nowExcluded := PathSet.join (earlier.nowExcluded \ later.nowIncluded) later.nowExcluded
  limitHit := later.limitHit.or earlier.limitHit

end FileChanges

/-- The tracked files of a root and its exclusions. -/
structure RootFiles where
  root : Path
  /-- Tracked files, and whether each is included -/
  files : PathMap Bool
  excluded : PathSet
  limits : DiscoveryLimits

namespace RootFiles

/-- The files of a root before any walk. -/
def ofRoot (root : Path) (limits : DiscoveryLimits) : RootFiles := ⟨root.normalize, ∅, ∅, limits⟩

/-- Whether a file is tracked. -/
def contains (set : RootFiles) (path : Path) : Bool := set.files.contains path

/-- Whether a file is tracked and included. -/
def isIncluded (set : RootFiles) (path : Path) : Bool := (set.files[path]?).getD false

/-- Whether a path lies at or beneath an exclusion. -/
def isExcluded (set : RootFiles) (path : Path) : Bool := path.isCoveredBy set.excluded.toList

/-- Whether a path is the root or lies beneath it. -/
def isUnderRoot (set : RootFiles) (path : Path) : Bool := path.isUnder set.root

/-- The included files, in path order. -/
def includedFiles (set : RootFiles) : List Path :=
  (set.files.toList.filter fun entry => entry.2).map (·.1)

/-- The exclusions as they are stored: relative to the root. -/
def storedExclusions (set : RootFiles) : List String :=
  set.excluded.toList.filterMap fun path => path.relativeTo? set.root

/-- Replaces the exclusions by stored entries, which are relative to `base` or absolute. Entries
under another root are left out, and so are entries that do not exist. -/
def setExclusions (set : RootFiles) (disk : Disk) (base : Path) (entries : List String) :
    RootFiles :=
  let paths := entries.map fun entry => (base.join (Path.ofString entry)).normalize
  let usable := paths.filter fun path => set.isUnderRoot path && disk.pathExists path
  { set with excluded := .collect usable }

/-- Stops tracking a file that is gone from the disk. Also tells whether it was tracked. -/
def dropMissing (set : RootFiles) (disk : Disk) (path : Path) : RootFiles × Bool :=
  if disk.pathExists path then (set, false)
  else ({ set with files := set.files.erase path }, set.files.contains path)

/-- Stops tracking everything. -/
def dropAll (set : RootFiles) : RootFiles × FileChanges :=
  let removed : PathSet := .collect set.files.keys
  let excluded : PathSet := .collect set.includedFiles
  ({ set with files := ∅ }, { FileChanges.empty with removed := removed, nowExcluded := excluded })

/-- The files that a walk found, and whether each is included. -/
def trackedAfter (set : RootFiles) (found : PathSet) : PathMap Bool :=
  found.toList.foldl (fun files path => files.insert path (!set.isExcluded path)) ∅

/-- Walks the root again and compares what it finds with the tracked files. A tracked file that was
not found counts as removed, unless it still exists beneath an exclusion. -/
def discover (set : RootFiles) (disk : Disk) : RootFiles × FileChanges :=
  let scan := disk.discover set.root ⟨set.excluded.toList, set.limits⟩
  let after := set.trackedAfter scan.files
  let included (files : PathMap Bool) (path : Path) : Bool := (files[path]?).getD false
  let found := scan.files
  let before := PathSet.collect set.files.keys
  let gone := before \ found
  ({ set with files := after },
    { added := found \ before
      removed := gone.filter fun path => !(set.isExcluded path && disk.pathExists path)
      nowIncluded := found.filter fun path => included after path && !included set.files path
      nowExcluded := before.filter fun path => included set.files path && !included after path
      limitHit := scan.limitHit })

/-- The normal form of a path that an operation may work on: one under the root that exists. -/
def validPath (set : RootFiles) (disk : Disk) (path : Path) : Except ProjectError Path :=
  let path := path.normalize
  if !set.isUnderRoot path then .error (.outsideRoot path set.root)
  else if !disk.pathExists path then .error (.notFound path)
  else .ok path

/-- Excludes a path and everything beneath it. -/
def excludePath (set : RootFiles) (disk : Disk) (path : Path) :
    RootFiles × Except ProjectError FileChanges :=
  match set.validPath disk path with
  | .error error => (set, .error error)
  | .ok path =>
    if set.isExcluded path then (set, .ok .empty)
    else
      let outside := set.excluded.filter fun other => !other.isUnder path
      let wider : RootFiles := { set with excluded := outside.insert path }
      let (after, delta) := wider.discover disk
      (after, .ok delta)

/-- Excludes the entries of a folder but the one on the way to a target, and so on down that way.
`way` holds the components from the folder to the target. When a folder cannot be listed, what was
excluded up to there stays, and the path of that folder is given. -/
def excludeBeside (disk : Disk) : (folder : Path) → (way : List Component) → PathSet →
    PathSet × Option Path
  | _, [], excluded => (excluded, none)
  | folder, next :: way, excluded =>
    if !disk.isFolder folder then (excluded, none)
    else match disk.list? folder with
      | none => (excluded, some folder)
      | some names =>
        let onTheWay := Path.ofComponents (folder.components ++ [next])
        names.foldl (fun (excluded, failed) name =>
          match failed with
          | some path => (excluded, some path)
          | none =>
            if folder.child name == onTheWay then excludeBeside disk onTheWay way excluded
            else (excluded.insert (folder.child name), none)) (excluded, none)

/-- The exclusion above a path, if there is one. -/
def exclusionAbove? (set : RootFiles) (path : Path) : Option Path :=
  set.excluded.toList.find? fun other => other != path && path.isUnder other

/-- Includes a path: lifts the exclusions at and beneath it, and splits the one above it. The set is
given also when that fails half way. -/
def includePath (set : RootFiles) (disk : Disk) (path : Path) :
    RootFiles × Except ProjectError FileChanges :=
  match set.validPath disk path with
  | .error error => (set, .error error)
  | .ok path =>
    let outside := set.excluded.filter fun other => !other.isUnder path
    match set.exclusionAbove? path with
    | none =>
      let narrower : RootFiles := { set with excluded := outside }
      let (after, delta) := narrower.discover disk
      (after, .ok delta)
    | some above =>
      let way := path.components.drop above.components.length
      let (excluded, failed) := excludeBeside disk above way (outside.erase above)
      let split : RootFiles := { set with excluded := excluded }
      match failed with
      | some folder => (split, .error (.fileSystem folder))
      | none =>
        let (after, delta) := split.discover disk
        (after, .ok delta)

end RootFiles

end SvServer
