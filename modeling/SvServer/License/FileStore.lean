import SvServer.Disk
import SvServer.License.Gate

/-!
A license key kept as the first word of a file.
-/

namespace SvServer.License

/-- Name of the file that keeps the key when no other is configured, in the current directory. -/
def defaultFile : String := ".metalware-license.txt"

/-- Reads the key from a file, named as configured. -/
def readKey (file : String) (disk : Disk) : Option String :=
  ((disk.text? (Path.ofString file)).bind fun text => (Text.words text.toList).head?).map
    String.ofList

/-- Writes the key to a file. -/
def writeKey (file key : String) (disk : Disk) : Except DiskError Disk :=
  disk.write (Path.ofString file) key

/-- The store on a file. -/
def fileStore (file : String) : Store Disk where
  read disk := readKey file disk
  write key disk := (writeKey file key disk).mapError fun error =>
    "failed to write license key to " ++ file ++ ": " ++ error.message

end SvServer.License
