import SvServer.Config
import SvServer.Disk
import SvServer.Path.Kind

/-!
Discovery of the hardware files under a root. The walk visits a folder before what is in it. Names
that begin with a dot are passed over, and so is every folder at or beneath an exclusion; a file
that is itself excluded is still found, so that it can be shown as excluded. The walk stops where a
limit is reached.
-/

namespace SvServer

/-- What a walk has found. -/
structure Discovery where
  files : PathSet
  visited : Nat
  /-- The limit that stopped the walk -/
  limitHit : Option Nat

/-- What a walk looks for. -/
structure DiscoveryRules where
  excluded : List Path
  limits : DiscoveryLimits

namespace Discovery

def empty : Discovery := ⟨∅, 0, none⟩

/-- Whether a limit was reached. -/
def isStopped (scan : Discovery) : Bool := scan.limitHit.isSome

/-- Visits an entry. -/
def visit (scan : Discovery) (rules : DiscoveryRules) : Discovery :=
  if scan.isStopped then scan
  else if rules.limits.entries < scan.visited + 1 then
    { scan with visited := scan.visited + 1, limitHit := some rules.limits.entries }
  else { scan with visited := scan.visited + 1 }

/-- Collects a file, if it is a hardware file. -/
def collect (scan : Discovery) (rules : DiscoveryRules) (path : Path) : Discovery :=
  if scan.isStopped || !path.isHdl then scan
  else if rules.limits.files ≤ scan.files.size then
    { scan with limitHit := some rules.limits.files }
  else { scan with files := scan.files.insert path.normalize }

end Discovery

/-- Whether a name is passed over. -/
def isHidden (name : String) : Bool := name.startsWith "."

/-- Walks the entries of a folder at a path. -/
def Folder.discover (rules : DiscoveryRules) (path : Path) : Folder → Discovery → Discovery
  | .empty, scan => scan
  | .file name _ rest, scan =>
    rest.discover rules path
      (if isHidden name then scan else (scan.visit rules).collect rules (path.child name))
  | .folder name readable inside rest, scan =>
    let here := path.child name
    rest.discover rules path
      (if isHidden name || here.isCoveredBy rules.excluded || scan.isStopped then scan
      else if readable then inside.discover rules here (scan.visit rules)
      else scan.visit rules)

/-- Walks a root. The root itself counts as an entry. -/
def Disk.discover (disk : Disk) (root : Path) (rules : DiscoveryRules) : Discovery :=
  match disk.entry? root with
  | none => .empty
  | some (.file _) => (Discovery.empty.visit rules).collect rules root
  | some (.folder readable inside) =>
    if root.isCoveredBy rules.excluded then .empty
    else if readable then inside.discover rules root (Discovery.empty.visit rules)
    else Discovery.empty.visit rules

end SvServer
