import SvServer.Project

/-!
Changes of a project that are kept in its settings file. Before a change the file is read again, so
that what other tools wrote to it stays; after it the file is written anew. A refused change takes
in what was read and writes nothing.
-/

namespace SvServer.Project

/-- Roots and exclusions, which decide what a walk finds. -/
def scope (project : Project) : List Path × List Path :=
  (project.exclusions, project.imports.keys)

/-- The project after its settings were read again. -/
structure Refreshed where
  project : Project
  /-- The settings as read; none when the file cannot be used -/
  stored : ProjectSettings
  delta : FileChanges

/-- Reads the settings again. The roots are walked only if the settings move roots or exclusions. -/
def refresh (project : Project) (disk : Disk) : Refreshed :=
  match ProjectSettings.read disk project.root with
  | .ok (some stored) =>
    let applied := project.apply disk stored
    let marked := if applied.settingsChanged then applied.project.addAllWaiting else applied.project
    if marked.scope == project.scope then ⟨marked, stored, applied.delta⟩
    else
      let (walked, delta) := marked.discoverAll disk
      ⟨walked, stored, applied.delta.merge delta⟩
  | _ => ⟨project, .empty, .empty⟩

/-- The settings of a project, over a file that also holds settings of other tools. -/
def settings (project : Project) (base : ProjectSettings) : ProjectSettings :=
  let foreign := project.imports.values.flatMap fun set => set.excluded.toList
  { base with
    excludePaths := project.principal.storedExclusions ++ foreign.map Path.toString
    imports := project.imports.keys.map Path.toString
    macros := project.macros.toList
    hiddenNames := project.hiddenNames.toList }

/-- Writes the settings file anew. A file that cannot be written stays as it is. -/
def saveSettings (project : Project) (disk : Disk) (base : ProjectSettings) : Disk :=
  match (project.settings base).write disk project.root with
  | .ok after => after
  | .error _ => disk

/-- What a change comes to. -/
structure Changed where
  project : Project
  disk : Disk
  followUp : Except ProjectError FollowUp

/-- Ends a change that succeeded. -/
def Changed.accept (project : Project) (disk : Disk) (stored : ProjectSettings)
    (delta : FileChanges) : Changed :=
  let saved := project.saveSettings disk stored
  let (after, followUp) := project.takeIn delta
  ⟨after, saved, .ok followUp⟩

/-- Ends a change that was refused. -/
def Changed.refuse (project : Project) (disk : Disk) (delta : FileChanges)
    (error : ProjectError) : Changed :=
  ⟨(project.takeIn delta).1, disk, .error error⟩

/-- Changes the files that a path belongs to. -/
def changeFiles (project : Project) (disk : Disk) (path : Path)
    (change : RootFiles → RootFiles × Except ProjectError FileChanges) : Changed :=
  let fresh := project.refresh disk
  let (set, result) := change (fresh.project.filesFor path)
  let after := fresh.project.putFilesFor path set
  match result with
  | .ok delta => .accept after disk fresh.stored (fresh.delta.merge delta)
  | .error error => .refuse after disk fresh.delta error

/-- Excludes a path and all beneath it. -/
def excludePath (project : Project) (disk : Disk) (path : Path) : Changed :=
  project.changeFiles disk path fun set => set.excludePath disk path

/-- Includes a path. -/
def includePath (project : Project) (disk : Disk) (path : Path) : Changed :=
  project.changeFiles disk path fun set => set.includePath disk path

/-- Compiles another folder as part of the project. It may neither lie inside a root nor contain
one. -/
def addRoot (project : Project) (disk : Disk) (path : Path) : Changed :=
  let path := path.normalize
  let refused (error : ProjectError) : Changed := ⟨project, disk, .error error⟩
  if !disk.pathExists path then refused (.notFound path)
  else if project.covers path then refused (.withinRoot path)
  else if project.hasRootUnder path then refused (.parentOfRoot path)
  else if !disk.isFolder path then refused (.notADirectory path)
  else
    let fresh := project.refresh disk
    let (set, delta) := (RootFiles.ofRoot path fresh.project.principal.limits).discover disk
    let after := { fresh.project with imports := fresh.project.imports.insert path set }
    .accept after disk fresh.stored (fresh.delta.merge delta)

/-- Drops an imported root with all its files. -/
def removeRoot (project : Project) (disk : Disk) (path : Path) : Changed :=
  let path := path.normalize
  if !disk.pathExists path then ⟨project, disk, .error (.notFound path)⟩
  else if path == project.root then ⟨project, disk, .error (.principalRoot path)⟩
  else
    let fresh := project.refresh disk
    if fresh.project.imports.contains path then
      let (after, delta) := fresh.project.dropImport path
      .accept after disk fresh.stored (fresh.delta.merge delta)
    else .refuse fresh.project disk fresh.delta (.notARoot path)

/-- Replaces the macros. Also tells whether the definitions changed; every included file waits for
a recompile either way. -/
def setMacros (project : Project) (disk : Disk) (given : List ProjectMacro) :
    Project × Disk × Bool :=
  let fresh := project.refresh disk
  let macros := MacroTable.ofList given
  let changed := !fresh.project.macros.agreesWith macros
  let replaced := { fresh.project with macros := macros }
  let saved := replaced.saveSettings disk fresh.stored
  ((replaced.takeIn fresh.delta).1.addAllWaiting, saved, changed)

end SvServer.Project
