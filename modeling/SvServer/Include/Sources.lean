import SvServer.Disk
import SvServer.Documents
import SvServer.Include.Resolve
import SvServer.Unit.Basic

/-!
The texts that one pass sees: open documents stand in place of what is on disk, and include names
resolve among the eligible files.
-/

namespace SvServer

/-- The sources of a pass over the eligible files. Paths under an exclusion never resolve when they
are named absolutely. -/
def Sources.ofProject (eligible : PathSet) (documents : Documents) (disk : Disk)
    (excluded : List Path) : Sources where
  text path := (documents.text? path).or (disk.text? path)
  resolve name directory := Include.resolve? eligible disk.isFile excluded name directory
  revision path := documents.revision? path

end SvServer
