import Mathlib.Data.List.Chain
import SvServer.Engine
import SvServer.Include.Sources
import SvServer.Proofs.Include.Graph
import SvServer.Proofs.Include.Names
import SvServer.Proofs.Include.Resolve

/-!
# Passes over a project

What a pass is given, seen as a whole: which eligible file includes which, and which files start
units. A pass over a project takes its texts from documents and disk; all paths are plain, every
eligible file can be read, include directives carry quoted relative names, and chains of includes
are short enough to be followed to their end.
-/

namespace SvServer

namespace PassSetup

/-- Whether one eligible file includes another. -/
def Includes (input : PassSetup) (source target : Path) : Prop :=
  source ∈ input.eligible.toList ∧ target ∈ input.eligible.toList ∧
    ∃ name ∈ Engine.namesIn input.sources source,
      input.sources.resolve name source.directory = some target

/-- Whether an eligible file starts a unit: a source file that no other file includes. -/
def IsRoot (input : PassSetup) (path : Path) : Prop :=
  path ∈ input.eligible.toList ∧ path.isSource = true ∧
    ∀ other, other ≠ path → ¬input.Includes other path

/-- A pass over a project, with the exclusions and the severity that the project has. Paths are
spelled plainly, since each is normalised where the server takes it in. -/
structure OverProject (excluded : List Path) (severity : Severity) (input : PassSetup) : Prop where
  provided : ∃ documents disk,
    input.sources = .ofProject input.eligible documents disk excluded
  severity : input.redefinedSeverity = severity
  compiles : input.compileAdded = true
  plainEligible : input.eligible.Plain
  plainDirty : input.dirty.Plain
  readable : ∀ path ∈ input.eligible.toList, input.sources.text path ≠ none
  quoted : ∀ path ∈ input.eligible.toList, ∀ text ∈ input.sources.text path,
    Include.QuotedRelative text
  /-- Chains of distinct files, each including the next, have fewer edges than files may be open -/
  shallow : ∀ chain : List Path, chain.Nodup → chain.IsChain input.Includes →
    chain.length ≤ Unit.openFileLimit

/-- The second pass is told of everything that changed since the first: files with another text,
and all files when the macros define something else. The order of macros does not count. -/
structure Follows (before after : PassSetup) : Prop where
  texts : ∀ path ∈ before.eligible.toList, path ∈ after.eligible.toList →
    after.sources.text path ≠ before.sources.text path → after.dirty.contains path = true
  macros : Unit.Definitions.ofProject after.macros ≠ Unit.Definitions.ofProject before.macros →
    ∀ path ∈ after.eligible.toList, after.dirty.contains path = true

namespace OverProject

variable {excluded : List Path} {severity : Severity} {input : PassSetup}

theorem plain_of_mem (h : OverProject excluded severity input) {path : Path}
    (member : path ∈ input.eligible.toList) : path.IsPlain :=
  h.plainEligible path member

theorem mem_iff (h : OverProject excluded severity input) {path : Path} (plain : path.IsPlain) :
    path ∈ input.eligible.toList ↔ input.eligible.contains path = true :=
  ⟨PathSet.contains_of_mem_toList, h.plainEligible.mem_toList plain⟩

/-- The names written in an eligible file are relative. -/
theorem relative (h : OverProject excluded severity input) {path : Path}
    (member : path ∈ input.eligible.toList) {name : String}
    (named : name ∈ Engine.namesIn input.sources path) :
    (Path.ofString name).isAbsolute = false := by
  rw [Engine.namesIn] at named
  cases read : input.sources.text path with
  | none =>
      rw [read] at named
      exact absurd named List.not_mem_nil
  | some text =>
      rw [read] at named
      exact (h.quoted path member text read).2 name named

/-- What an eligible file includes is eligible. -/
theorem includes_of_resolve (h : OverProject excluded severity input) {source target : Path}
    (member : source ∈ input.eligible.toList) {name : String}
    (named : name ∈ Engine.namesIn input.sources source)
    (led : input.sources.resolve name source.directory = some target) :
    input.Includes source target := by
  refine ⟨member, ?_, name, named, led⟩
  obtain ⟨documents, disk, provided⟩ := h.provided
  rw [provided] at led
  exact Include.mem_of_resolve? h.plainEligible (h.relative member named) led

/-- **Names move only with files.** A name leads where it led in another pass if what it led to is
still eligible and what it leads to was eligible then. -/
theorem resolve_stable {input' : PassSetup} (h : OverProject excluded severity input)
    (h' : OverProject excluded severity input') {name : String} {directory : Path}
    (relative : (Path.ofString name).isAbsolute = false)
    (stayed : ∀ target, input.sources.resolve name directory = some target →
      input'.eligible.contains target = true)
    (known : ∀ target, input'.sources.resolve name directory = some target →
      input.eligible.contains target = true) :
    input'.sources.resolve name directory = input.sources.resolve name directory := by
  obtain ⟨documents, disk, provided⟩ := h.provided
  obtain ⟨documents', disk', provided'⟩ := h'.provided
  rw [provided] at stayed ⊢
  rw [provided'] at known ⊢
  exact Include.resolve?_stable h.plainEligible h'.plainEligible relative stayed known

end OverProject

/-- A pass over open documents, given by path and text. Nothing is on the disk and no macro is
defined; documents that were not seen before are compiled. -/
def overDocuments (texts : List (String × String)) (dirty : List String) : PassSetup :=
  let documents := texts.foldl (fun documents (path, text) =>
    documents.openDocument (.ofString path) text 1) Documents.empty
  let eligible := PathSet.collect documents.paths
  { eligible := eligible
    sources := .ofProject eligible documents default []
    macros := .empty
    redefinedSeverity := .warning
    dirty := .collect (dirty.map Path.ofString)
    compileAdded := true
    crossFile := true }

end PassSetup

end SvServer
