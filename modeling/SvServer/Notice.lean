import SvServer.Json.Basic
import SvServer.License.Gate

/-!
The notices of the server to the editor, besides publications: their methods and parameters.
-/

namespace SvServer

/-- What the editor is told about license and project. -/
inductive Notice where
  | licenseMissing
  | licenseValid
  | licenseInvalid
  | cacheLicense (key : String)
  | macrosChanged
  | exclusionsChanged
  | projectStructureChanged
  | warning (message : String)
deriving DecidableEq, Repr

namespace Notice

/-- The method under which a notice is sent. -/
def method : Notice → String
  | licenseMissing => "backend/licenseMissing"
  | licenseValid => "backend/licenseValid"
  | licenseInvalid => "backend/licenseInvalid"
  | cacheLicense _ => "backend/cacheLicense"
  | macrosChanged => "backend/macrosChanged"
  | exclusionsChanged => "backend/exclusionsChanged"
  | projectStructureChanged => "backend/projectStructureChanged"
  | warning _ => "backend/warning"

/-- The parameters of a notice that carries only a message. -/
def messageParams (message : String) : Json := .object [("message", .string message)]

/-- The parameters of a warning; 2 is the message type of warnings. -/
def warningParams (message : String) : Json :=
  .object [("type", .nat 2), ("message", .string message)]

/-- The parameters of the notice that hands over a key. -/
def keyParams (key : String) : Json := .object [("key", .string key)]

/-- The parameters of a notice. -/
def params : Notice → Json
  | licenseMissing => messageParams "License error: missing license"
  | licenseValid => messageParams "License is valid"
  | licenseInvalid => messageParams "License error: invalid license"
  | cacheLicense key => keyParams key
  | macrosChanged | exclusionsChanged | projectStructureChanged => .null
  | warning message => warningParams message

/-- The notice of an event of the license gate. -/
def ofLicense : License.Event → Notice
  | .missing => licenseMissing
  | .valid => licenseValid
  | .invalid => licenseInvalid
  | .cacheKey key => cacheLicense key
  | .warning message => warning message

end Notice

end SvServer
