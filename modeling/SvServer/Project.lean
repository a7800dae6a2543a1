import SvServer.Include.Sources
import SvServer.Project.Settings
import SvServer.Project.RootFiles
import SvServer.Publisher

/-!
An open project: its principal root and the roots imported beside it, its macros, the diagnostics it
hides, and the files that wait for the next explicit recompile.

No root lies inside another one. What the settings file says is applied when a project opens and
again before each change that writes the file anew.
-/

namespace SvServer

/-- What a change of a project leaves to be done. -/
structure FollowUp where
  /-- Files whose diagnostics have to be cleared at once -/
  cleared : PathSet
  /-- Whether files came into the project or left it -/
  filesMoved : Bool
  /-- A discovery limit that was met for the first time -/
  limitWarning : Option Nat

/-- A project as it is open in the editor. -/
structure Project where
  /-- Files under the principal root -/
  principal : RootFiles
  /-- Files under each imported root -/
  imports : PathMap RootFiles
  macros : MacroTable
  hiddenNames : Std.ExtTreeSet String compare
  /-- Files that wait for the next explicit recompile -/
  waiting : PathSet
  /-- Whether a discovery limit was reported already -/
  limitWarned : Bool

namespace Project

/-- A project before its settings are read. -/
def ofRoot (root : Path) (limits : DiscoveryLimits) : Project :=
  ⟨.ofRoot root limits, ∅, .empty, ∅, ∅, false⟩

/-! ## Views -/

/-- The principal root. -/
def root (project : Project) : Path := project.principal.root

/-- The files of every root, the principal one first. -/
def rootFiles (project : Project) : List RootFiles := project.principal :: project.imports.values

/-- Whether a path lies at or beneath some root. -/
def covers (project : Project) (path : Path) : Bool :=
  project.rootFiles.any fun set => set.isUnderRoot path

/-- Whether some root lies at or beneath a path. -/
def hasRootUnder (project : Project) (path : Path) : Bool :=
  project.rootFiles.any fun set => set.root.isUnder path

/-- The exclusions of all roots. -/
def exclusions (project : Project) : List Path :=
  project.rootFiles.flatMap fun set => set.excluded.toList

/-- Whether a path lies at or beneath some exclusion. -/
def isExcluded (project : Project) (path : Path) : Bool :=
  project.rootFiles.any fun set => set.isExcluded path

/-- Whether diagnostics of a name are hidden. -/
def hides (project : Project) (name : String) : Bool :=
  project.hiddenNames.contains name

/-- The included files of all roots. -/
def includedFiles (project : Project) : List Path :=
  project.rootFiles.flatMap RootFiles.includedFiles

/-- Whether an open document takes part in the compilation, tracked or not. -/
def admits (project : Project) (path : Path) : Bool :=
  path.isHdl && project.covers path && !project.isExcluded path

/-- The files that may be compiled: the included files and the open documents that take part. -/
def eligible (project : Project) (openPaths : List Path) : PathSet :=
  (PathSet.collect project.includedFiles).extend (openPaths.filter project.admits)

/-- The sources of a pass over the project. -/
def sources (project : Project) (documents : Documents) (disk : Disk) : Sources :=
  .ofProject (project.eligible documents.paths) documents disk project.exclusions

/-- What the project lets be published. -/
def publishRules (project : Project) (source : String) : PublishRules :=
  ⟨source, project.exclusions, project.hiddenNames.toList⟩

/-! ## The root that a path belongs to -/

/-- The imported root that a path lies under. -/
def importAbove? (project : Project) (path : Path) : Option Path :=
  project.imports.keys.find? path.isUnder

/-- The files that a path belongs to: those of the imported root above it, or else those of the
principal root. -/
def filesFor (project : Project) (path : Path) : RootFiles :=
  ((project.importAbove? path).bind fun root => project.imports[root]?).getD project.principal

/-- Puts files in the place of those that a path belongs to. -/
def putFilesFor (project : Project) (path : Path) (set : RootFiles) : Project :=
  match project.importAbove? path with
  | some root => { project with imports := project.imports.put root set }
  | none => { project with principal := set }

/-! ## The files that wait -/

/-- The file has to be compiled again. -/
def addWaiting (project : Project) (path : Path) : Project :=
  { project with waiting := project.waiting.insert path }

/-- Every included file has to be compiled again. -/
def addAllWaiting (project : Project) : Project :=
  { project with waiting := project.waiting.extend project.includedFiles }

/-- Hands over the files that wait. -/
def takeWaiting (project : Project) : Project × PathSet :=
  ({ project with waiting := ∅ }, project.waiting)

/-- Takes a change of the tracked files in. The first limit of a project is reported, later ones are
not. -/
def takeIn (project : Project) (delta : FileChanges) : Project × FollowUp :=
  let warning := if project.limitWarned then none else delta.limitHit
  ({ project with
      waiting :=
        ((project.waiting.join delta.nowIncluded).join delta.nowExcluded).join delta.removed
      limitWarned := project.limitWarned || warning.isSome },
    ⟨delta.nowExcluded, delta.movesFiles, warning⟩)

/-! ## Discovery -/

/-- Walks every root again. -/
def discoverAll (project : Project) (disk : Disk) : Project × FileChanges :=
  let (principal, delta) := project.principal.discover disk
  project.imports.toList.foldl (fun (project, delta) (root, set) =>
    let (set, change) := set.discover disk
    ({ project with imports := project.imports.put root set }, delta.merge change))
    ({ project with principal := principal }, delta)

/-- Walks every root again within new limits. -/
def discover (project : Project) (disk : Disk) (limits : DiscoveryLimits) :
    Project × FollowUp :=
  let limited : Project := { project with
    principal := { project.principal with limits := limits }
    imports := project.imports.map fun _ set => { set with limits := limits } }
  let (walked, delta) := limited.discoverAll disk
  walked.takeIn delta

/-- Drops a closed document's file if it is gone from the disk. Also tells whether it was
tracked. -/
def dropMissing (project : Project) (disk : Disk) (path : Path) : Project × Bool :=
  let (set, forgotten) := (project.filesFor path).dropMissing disk path
  if forgotten then
    let kept := project.putFilesFor path set
    ({ kept with waiting := kept.waiting.erase path }, true)
  else (project, false)

/-! ## Applying settings -/

/-- The roots that entries of the settings name: absolute paths of folders. -/
def wantedImports (disk : Disk) (entries : List String) : PathSet :=
  let paths := entries.map fun entry => (Path.ofString entry).normalize
  .collect (paths.filter fun path => path.isAbsolute && disk.isFolder path)

/-- Drops an imported root with all its files. -/
def dropImport (project : Project) (root : Path) : Project × FileChanges :=
  match project.imports[root]? with
  | none => (project, .empty)
  | some set => ({ project with imports := project.imports.erase root }, set.dropAll.2)

/-- Adds an imported root, whose files are not known yet. One that lies inside another root or
contains one is left out. -/
def addImport (project : Project) (root : Path) : Project :=
  if project.imports.contains root || project.covers root || project.hasRootUnder root then
    project
  else
    { project with
      imports := project.imports.insert root (.ofRoot root project.principal.limits) }

/-- Makes the imported roots those that entries name. Gives the files of the roots dropped. -/
def importRoots (project : Project) (disk : Disk) (entries : List String) :
    Project × FileChanges :=
  let wanted := wantedImports disk entries
  let dropped := project.imports.keys.filter fun root => !wanted.contains root
  let (kept, delta) := dropped.foldl (fun (project, delta) root =>
    let (project, change) := project.dropImport root
    (project, delta.merge change)) (project, FileChanges.empty)
  (wanted.toList.foldl addImport kept, delta)

/-- What applying settings did. -/
structure Applied where
  project : Project
  /-- Whether macros or hidden names changed -/
  settingsChanged : Bool
  /-- The files of the roots that the settings no longer list -/
  delta : FileChanges

/-- Applies roots, exclusions, macros and hidden names. -/
def apply (project : Project) (disk : Disk) (settings : ProjectSettings) : Applied :=
  let (imported, delta) := project.importRoots disk settings.imports
  let exclude (set : RootFiles) : RootFiles :=
    set.setExclusions disk project.root settings.excludePaths
  let macros := MacroTable.ofList settings.macros
  let hiddenNames : Std.ExtTreeSet String compare := .ofList settings.hiddenNames compare
  let changed := !project.macros.agreesWith macros || project.hiddenNames != hiddenNames
  let applied : Project := { imported with
    principal := exclude imported.principal
    imports := imported.imports.map fun _ set => exclude set
    macros := macros
    hiddenNames := hiddenNames }
  ⟨applied, changed, delta⟩

/-- Opens the project at a root: reads its settings and walks its roots. Every included file
waits for the first recompile. -/
def openRoot (disk : Disk) (root : Path) (limits : DiscoveryLimits) :
    Except ProjectError (Project × FollowUp) :=
  let root := root.normalize
  if !disk.isFolder root then .error (.notFound root)
  else
    let applied := (ofRoot root limits).apply disk (ProjectSettings.readOrEmpty disk root)
    let (walked, delta) := applied.project.discoverAll disk
    let (project, followUp) := walked.takeIn (applied.delta.merge delta)
    .ok (project.addAllWaiting, followUp)

/-- Reads the settings file again and walks all roots. -/
def reload (project : Project) (disk : Disk) : Project × FollowUp :=
  let applied := project.apply disk (ProjectSettings.readOrEmpty disk project.root)
  let (walked, delta) := applied.project.discoverAll disk
  let (after, followUp) := walked.takeIn (applied.delta.merge delta)
  (if applied.settingsChanged then after.addAllWaiting else after, followUp)

end Project

end SvServer
