import SvServer.Path.Normal

/-!
The file system as a value: a tree of folders and files without links. Folders list their entries in
some order, which nothing else depends on, and a folder may refuse to be listed.

Paths are looked up as they are written, one segment after the other: `..` leads back to the folder
that the walk came from, and nothing may stand behind the name of a file, not even a separator.
-/

namespace SvServer

/-- A file. `text` is missing when the bytes are not UTF-8; `modified` is the time of the last
write. -/
structure FileContents where
  text : Option String
  size : Nat
  modified : Nat
deriving DecidableEq, Repr, Inhabited

/-- The entries of a folder, in the order in which they are listed. -/
inductive Folder where
  | empty
  | file (name : String) (contents : FileContents) (rest : Folder)
  | folder (name : String) (readable : Bool) (inside : Folder) (rest : Folder)
deriving DecidableEq, Repr, Inhabited

/-- What a path leads to. -/
inductive DiskEntry where
  | file (contents : FileContents)
  | folder (readable : Bool) (inside : Folder)
deriving DecidableEq, Repr, Inhabited

/-- Why an operation on the file system failed. -/
inductive DiskError where
  | notFound
  | notADirectory
  | isADirectory
  | nameTooLong
  /-- The path holds a character that ends texts of the operating system -/
  | nulInName
deriving DecidableEq, Repr

/-- The wording of an error of the operating system. -/
def DiskError.message : DiskError → String
  | notFound => "No such file or directory (os error 2)"
  | notADirectory => "Not a directory (os error 20)"
  | isADirectory => "Is a directory (os error 21)"
  | nameTooLong => "File name too long (os error 36)"
  | nulInName => "file name contained an unexpected NUL byte"

namespace Folder

/-- The entry of a name. -/
def find? (name : String) : Folder → Option DiskEntry
  | empty => none
  | file other contents rest => if other = name then some (.file contents) else rest.find? name
  | folder other readable inside rest =>
    if other = name then some (.folder readable inside) else rest.find? name

/-- The names of all entries, in the order of the listing. -/
def names : Folder → List String
  | empty => []
  | file name _ rest => name :: rest.names
  | folder name _ _ rest => name :: rest.names

/-- An entry in front of others. -/
def cons (name : String) (entry : DiskEntry) (rest : Folder) : Folder :=
  match entry with
  | .file contents => file name contents rest
  | .folder readable inside => folder name readable inside rest

/-- Puts an entry in the place of the one with its name, or else at the end. -/
def put (name : String) (entry : DiskEntry) : Folder → Folder
  | empty => cons name entry empty
  | file other contents rest =>
    if other = name then cons name entry rest else file other contents (put name entry rest)
  | folder other readable inside rest =>
    if other = name then cons name entry rest
    else folder other readable inside (put name entry rest)

/-- Removes an entry with all inside of it. -/
def erase (name : String) : Folder → Folder
  | empty => empty
  | file other contents rest =>
    if other = name then rest else file other contents (erase name rest)
  | folder other readable inside rest =>
    if other = name then rest else folder other readable inside (erase name rest)

/-- Writes a file; the folders on the way must be there. -/
def write (contents : FileContents) : List String → Folder → Except DiskError Folder
  | [], _ => .error .isADirectory
  | [name], entries =>
    match entries.find? name with
    | some (.folder _ _) => .error .isADirectory
    | _ => .ok (entries.put name (.file contents))
  | name :: more, entries =>
    match entries.find? name with
    | none => .error .notFound
    | some (.file _) => .error .notADirectory
    | some (.folder readable inside) =>
      (write contents more inside).map fun inside => entries.put name (.folder readable inside)

/-- Makes a folder and the folders on the way to it, as far as they are missing. -/
def makeFolders : List String → Folder → Folder
  | [], entries => entries
  | name :: more, entries =>
    match entries.find? name with
    | none => entries.put name (.folder true (makeFolders more empty))
    | some (.file _) => entries
    | some (.folder readable inside) =>
      entries.put name (.folder readable (makeFolders more inside))

/-- Removes what a path leads to; `none` when it leads nowhere. -/
def remove? : List String → Folder → Option Folder
  | [], _ => none
  | [name], entries => (entries.find? name).map fun _ => entries.erase name
  | name :: more, entries =>
    match entries.find? name with
    | some (.folder readable inside) =>
      (remove? more inside).map fun inside => entries.put name (.folder readable inside)
    | _ => none

end Folder

/-- A file system with a current directory. -/
structure Disk where
  top : Folder
  current : Path
  /-- The time that the next write gets -/
  now : Nat
deriving BEq, Inhabited

namespace Disk

/-- The bytes that one name may have. -/
def nameLimit : Nat := 255

/-- The bytes that the text of a path may have. -/
def pathLimit : Nat := 4095

/-- What keeps the text of a path from being looked up at all. -/
def textError? (path : Path) : Option DiskError :=
  let text := path.toString
  if text.toList.contains '\x00' then some .nulInName
  else if pathLimit < text.utf8ByteSize then some .nameTooLong
  else if text = "" then some .notFound
  else none

/-- One step of a look-up. `trail` holds the entries passed, innermost first. -/
def follow (trail : List DiskEntry) (segment : String) : Except DiskError (List DiskEntry) :=
  match trail with
  | .folder _ inside :: outer =>
    if segment = "" ∨ segment = "." then .ok trail
    else if segment = ".." then .ok (if outer.isEmpty then trail else outer)
    else if nameLimit < segment.utf8ByteSize then .error .nameTooLong
    else match inside.find? segment with
      | some entry => .ok (entry :: trail)
      | none => .error .notFound
  | _ => .error .notADirectory

/-- What a row of segments leads to, from the top. -/
def walk (disk : Disk) (segments : List String) : Except DiskError DiskEntry :=
  match segments.foldlM follow [.folder true disk.top] with
  | .ok (entry :: _) => .ok entry
  | .ok [] => .error .notFound
  | .error error => .error error

/-- What a path leads to. The empty path leads nowhere. -/
def resolve (disk : Disk) (path : Path) : Except DiskError DiskEntry :=
  match textError? path with
  | some error => .error error
  | none => disk.walk (disk.current.join path).segments

@[inherit_doc resolve]
def entry? (disk : Disk) (path : Path) : Option DiskEntry := (disk.resolve path).toOption

/-- Whether a path leads anywhere. -/
def pathExists (disk : Disk) (path : Path) : Bool := (disk.entry? path).isSome

/-- Whether a path leads to a file. -/
def isFile (disk : Disk) (path : Path) : Bool :=
  match disk.entry? path with
  | some (.file _) => true
  | _ => false

/-- Whether a path leads to a folder. -/
def isFolder (disk : Disk) (path : Path) : Bool :=
  match disk.entry? path with
  | some (.folder _ _) => true
  | _ => false

/-- The contents of a file. -/
def file? (disk : Disk) (path : Path) : Option FileContents :=
  match disk.entry? path with
  | some (.file contents) => some contents
  | _ => none

/-- The text of a file; none when it is missing, a folder or not UTF-8. -/
def text? (disk : Disk) (path : Path) : Option String := (disk.file? path).bind FileContents.text

/-- The names of the entries of a folder; none when it cannot be listed. -/
def list? (disk : Disk) (path : Path) : Option (List String) :=
  match disk.entry? path with
  | some (.folder true inside) => some inside.names
  | _ => none

/-- The names that lead from the top to where a path points. -/
def namesTo (disk : Disk) (path : Path) : List String :=
  (disk.current.join path).normalize.components.filterMap fun component =>
    match component with
    | .named name => some name
    | _ => none

/-- Whether a file can be written at the end of a row of segments: what comes before its name leads
to a folder, and the name is an ordinary one of bearable length, with no separator behind it. -/
def writable (disk : Disk) (segments : List String) : Except DiskError Unit :=
  let named := (segments.reverse.dropWhile (· = "")).reverse
  match disk.walk named.dropLast with
  | .error error => .error error
  | .ok (.file _) => .error .notADirectory
  | .ok (.folder _ _) =>
    match named.getLast? with
    | none | some "." | some ".." => .error .isADirectory
    | some name =>
      if named.length < segments.length then .error .isADirectory
      else if nameLimit < name.utf8ByteSize then .error .nameTooLong
      else .ok ()

/-- Writes a file whose contents are known up to the time. The folder that it lies in must be
there. -/
def writeContents (disk : Disk) (path : Path) (text : Option String) (size : Nat) :
    Except DiskError Disk := do
  if let some error := textError? path then throw error
  disk.writable (disk.current.join path).segments
  let top ← disk.top.write ⟨text, size, disk.now⟩ (disk.namesTo path)
  return { disk with top := top, now := disk.now + 1 }

/-- Writes a text file. -/
def write (disk : Disk) (path : Path) (text : String) : Except DiskError Disk :=
  disk.writeContents path (some text) text.utf8ByteSize

/-- Makes a folder and what is missing on the way to it. -/
def makeFolders (disk : Disk) (path : Path) : Disk :=
  { disk with top := disk.top.makeFolders (disk.namesTo path) }

/-- Removes a file or a folder with all inside of it; `none` when there is nothing to remove. -/
def remove? (disk : Disk) (path : Path) : Option Disk :=
  if disk.pathExists path then
    (disk.top.remove? (disk.namesTo path)).map fun top => { disk with top := top }
  else none

end Disk

end SvServer
