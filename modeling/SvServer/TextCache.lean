import SvServer.Disk

/-!
A bounded cache of texts on disk. A cached text counts as fresh while the time of the last write and
the size of its file are what they were when it was read. When the cache is full, the entry that was
not used for the longest time makes room.
-/

namespace SvServer

/-- What tells two states of a file apart. -/
structure FileStamp where
  modified : Nat
  size : Nat
deriving DecidableEq, Repr

/-- The text of a file together with the stamp under which it was read. -/
structure CachedText where
  path : Path
  stamp : FileStamp
  text : String
deriving BEq, Repr

/-- A cache that holds at most `capacity` texts. -/
structure TextCache where
  capacity : Nat
  /-- The entries, last used first -/
  entries : List CachedText
deriving BEq, Repr

namespace TextCache

/-- An empty cache. It has room for one entry at least. -/
def ofCapacity (capacity : Nat) : TextCache := ⟨max capacity 1, []⟩

/-- How many texts a cache holds unless told otherwise. -/
def defaultCapacity : Nat := 4096

/-- Number of texts held. -/
def size (cache : TextCache) : Nat := cache.entries.length

/-- The entry of a file. -/
def find? (cache : TextCache) (path : Path) : Option CachedText :=
  cache.entries.find? fun entry => entry.path == path

/-- The entries of all other files. -/
def without (cache : TextCache) (path : Path) : List CachedText :=
  cache.entries.filter fun entry => entry.path != path

/-- Looks an entry up and marks it as used, whether it is fresh or not. -/
def fresh? (cache : TextCache) (path : Path) (current : FileStamp) :
    TextCache × Option String :=
  match cache.find? path with
  | none => (cache, none)
  | some entry =>
    ({ cache with entries := entry :: cache.without path },
      if entry.stamp = current then some entry.text else none)

/-- Puts a text in, in place of the one that the file had. -/
def insert (cache : TextCache) (path : Path) (stamp : FileStamp) (text : String) : TextCache :=
  let others := cache.without path
  { cache with entries := ⟨path, stamp, text⟩ :: others.take (cache.capacity - 1) }

/-- Drops the text of a file. -/
def forget (cache : TextCache) (path : Path) : TextCache :=
  { cache with entries := cache.without path }

/-- Drops all texts. -/
def clear (cache : TextCache) : TextCache := { cache with entries := [] }

/-- The stamp of a file. -/
def fileStamp? (disk : Disk) (path : Path) : Option FileStamp :=
  (disk.file? path).map fun file => ⟨file.modified, file.size⟩

/-- The stamp of whatever a path leads to. Folders have one too. -/
def anyStamp? (disk : Disk) (path : Path) : Option FileStamp :=
  match disk.entry? path with
  | some (.file file) => some ⟨file.modified, file.size⟩
  | some (.folder _ _) => some ⟨0, 0⟩
  | none => none

/-- Reads a file through the cache while the disk changes: the three disks are what the look at the
stamp, the reading and the second look at the stamp find. -/
def readAcross (cache : TextCache) (path : Path) (first reading second : Disk) :
    TextCache × Option String :=
  match fileStamp? first path with
  | none => (cache, none)
  | some current =>
    match cache.fresh? path current with
    | (used, some text) => (used, some text)
    | (used, none) =>
      match reading.text? path with
      | none => (used, none)
      | some text =>
        match anyStamp? second path with
        | none => (used, none)
        | some stamp => (used.insert path stamp text, some text)

/-- Reads a file through the cache. -/
def read (cache : TextCache) (path : Path) (disk : Disk) : TextCache × Option String :=
  cache.readAcross path disk disk disk

end TextCache

end SvServer
