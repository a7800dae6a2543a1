import SvServer.Diagnostic
import SvServer.Json.Basic

/-!
The configuration of the server, read from the settings that the editor sends.
-/

namespace SvServer

/-- How far discovery may go. -/
structure DiscoveryLimits where
  /-- Directory entries visited before the walk stops -/
  entries : Nat
  /-- Hardware files collected before the walk stops -/
  files : Nat
deriving DecidableEq, Repr

/-- The settings of the server as they are in force. -/
structure Config where
  /-- Milliseconds between a document event and the pass that it causes -/
  debounce : Nat
  limits : DiscoveryLimits
  /-- Where the license key is kept, if not in the default file -/
  licenseFile : Option String
  /-- The `source` of every published diagnostic -/
  source : String
  /-- Severity of a definition that redefines a macro -/
  redefinedSeverity : Severity
deriving DecidableEq, Repr

namespace Config

/-- The configuration before any settings arrive. -/
def initial : Config := ⟨0, ⟨1000000, 10000⟩, none, "hdlsp", .warning⟩

instance : Inhabited Config := ⟨initial⟩

/-- Whether the step from one configuration to another changes which files a project tracks. -/
def limitsDiffer (before after : Config) : Bool := before.limits ≠ after.limits

/-- The severity of a word, in any case; every unknown word means a warning. -/
def severityOf (word : String) : Severity :=
  match word.toLower with
  | "error" => .error
  | "info" | "information" => .information
  | "hint" => .hint
  | _ => .warning

/-- The settings of this server: the section of its own name if there is one, or else the whole. -/
def section? (settings : Json) : Option Json :=
  match settings.get? "hdlsp" with
  | some (.object fields) => some (.object fields)
  | _ =>
    match settings with
    | .object _ => some settings
    | _ => none

/-- Reads a configuration. A setting that is absent or of the wrong kind has its initial value. -/
def ofJson? (settings : Json) : Option Config := do
  let own ← section? settings
  let natural (key : String) (initially : Nat) : Nat :=
    ((own.get? key).bind Json.natural?).getD initially
  let text? (key : String) : Option String := (own.get? key).bind Json.string?
  return {
    debounce := natural "debounceMs" initial.debounce
    limits :=
      ⟨natural "maxScanFiles" initial.limits.entries,
        natural "maxProjectFiles" initial.limits.files⟩
    licenseFile := (text? "licensePath").filter (· ≠ "")
    source := (text? "diagnosticSource").getD initial.source
    redefinedSeverity :=
      ((text? "macroRedefinedSeverity").map severityOf).getD initial.redefinedSeverity }

end Config

end SvServer
