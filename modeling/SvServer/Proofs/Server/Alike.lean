import SvServer.Proofs.Documents
import SvServer.Proofs.Engine.Revisions
import SvServer.Proofs.Server.Passes
import SvServer.Proofs.Server.Received

/-!
# Servers that differ in revisions only

Two servers with the same buffers, the same project and the same record, whose engines differ in
the revisions that units note: every pass leaves two such servers again, and publishes the same.
-/

namespace SvServer

open Publisher (Call)

namespace Server

/-! ## What a pass leaves and publishes -/

/-- What a publisher is asked for after a pass that sees the open documents. -/
def passCalls (server : Server) (input : PassSetup) : List Call :=
  (server.engine.run input).2.touched.toList.map fun path =>
    .send path ((server.engine.run input).1.diagnosticsOf path) server.publishRules

/-- **A pass that sees the open documents publishes what the engine has for the files it
touched.** -/
theorem publish_compute {server : Server} {input : PassSetup}
    (revision : ∀ path, input.sources.revision path = server.documents.revision? path) :
    (server.compute input).1.publish (server.compute input).2 =
      ({ server with
          engine := (server.engine.run input).1
          declarations := (server.engine.run input).1.declarations
          publisher := Row.after Publisher.perform server.publisher (server.passCalls input) },
        Row.told Publisher.perform server.publisher (server.passCalls input)) := by
  have current := current_reports revision
  have calls : sends (server.compute input).1.publishRules
      ((server.compute input).2.filter fun file =>
        (server.compute input).1.documents.revision? file.path == file.revision) =
          server.passCalls input := by
    refine (congrArg (sends server.publishRules) current).trans ?_
    rw [sends, reports_eq, List.map_map]
    rfl
  rw [publish_eq, calls]
  rfl

/-! ## Passes of servers that are alike -/

/-- Servers that differ at most in the revisions of buffers, and in what waits for its time. -/
structure Alike (a b : Server) : Prop where
  config : b.config = a.config
  documents : a.documents.SameBuffers b.documents
  gate : b.gate = a.gate
  project : b.project = a.project
  publisher : b.publisher = a.publisher
  declarations : b.declarations = a.declarations
  engine : a.engine.Alike b.engine

variable {a b : Server}

theorem Alike.publishRules_eq (h : a.Alike b) : b.publishRules = a.publishRules := by
  rw [publishRules, publishRules, h.project, h.config]

theorem Alike.eligible_eq (h : a.Alike b) : b.eligible = a.eligible := by
  rw [eligible, eligible, h.project, h.documents.paths]

theorem Alike.sources_eq (h : a.Alike b) (disk : Disk) : b.sources disk =
    { a.sources disk with revision := b.documents.revision? } := by
  have text : (fun path => (b.documents.text? path).or (disk.text? path)) =
      fun path => (a.documents.text? path).or (disk.text? path) :=
    funext fun path => by rw [h.documents.text]
  have sources : ∀ eligible excluded, Sources.ofProject eligible b.documents disk excluded =
      { Sources.ofProject eligible a.documents disk excluded with
        revision := b.documents.revision? } := by
    intro eligible excluded
    rw [Sources.ofProject, Sources.ofProject, text]
  rw [Server.sources_eq, Server.sources_eq, h.project, h.documents.paths]
  cases a.project with
  | none => exact sources _ _
  | some project =>
      show project.sources b.documents disk = _
      rw [Project.sources, h.documents.paths]
      exact sources _ _

theorem Alike.passSetup_eq (h : a.Alike b) (disk : Disk) (dirty : PathSet) (compileAdded : Bool) :
    b.passSetup disk dirty compileAdded =
      (a.passSetup disk dirty compileAdded).withRevision b.documents.revision? := by
  rw [passSetup, h.eligible_eq, h.sources_eq, macros, h.project, h.config, h.gate]
  rfl

theorem Alike.takeWaiting (h : a.Alike b) :
    a.takeWaiting.1.Alike b.takeWaiting.1 ∧ b.takeWaiting.2 = a.takeWaiting.2 := by
  rw [Server.takeWaiting.eq_def, Server.takeWaiting.eq_def, h.project]
  cases a.project with
  | none => exact ⟨h, rfl⟩
  | some project =>
      exact ⟨⟨h.config, h.documents, h.gate, rfl, h.publisher, h.declarations, h.engine⟩, rfl⟩

/-- **A pass that sees the open documents** leaves servers alike and publishes the same. -/
theorem Alike.pass (h : a.Alike b) (disk : Disk) (dirty : PathSet) (compileAdded : Bool) :
    let first := a.compute (a.passSetup disk dirty compileAdded)
    let second := b.compute (b.passSetup disk dirty compileAdded)
    (first.1.publish first.2).1.Alike (second.1.publish second.2).1 ∧
      (second.1.publish second.2).2 = (first.1.publish first.2).2 := by
  have engines := h.engine.run (a.passSetup disk dirty compileAdded) b.documents.revision?
  rw [← h.passSetup_eq] at engines
  obtain ⟨engine, report⟩ := engines
  have calls : b.passCalls (b.passSetup disk dirty compileAdded) =
      a.passCalls (a.passSetup disk dirty compileAdded) := by
    rw [passCalls, passCalls, report, h.publishRules_eq]
    exact List.map_congr_left fun path _ => by rw [engine.diagnosticsOf_eq]
  dsimp only
  rw [publish_compute (revision_sources a disk), publish_compute (revision_sources b disk), calls,
    h.publisher]
  exact ⟨⟨h.config, h.documents, h.gate, h.project, rfl, engine.declarations_eq, engine⟩, rfl⟩

/-- **Every pass leaves servers alike and publishes the same.** -/
theorem Alike.compile (h : a.Alike b) (disk : Disk) (scope : PassScope) :
    (a.compile disk scope).1.Alike (b.compile disk scope).1 ∧
      (b.compile disk scope).2 = (a.compile disk scope).2 := by
  have allows : b.allows scope = a.allows scope := by
    cases scope with
    | files paths => rfl
    | project => exact congrArg License.Gate.isValid h.gate
  rw [Server.compile, Server.compile, setup?.eq_def, setup?.eq_def, allows]
  cases a.allows scope with
  | false => exact ⟨h, rfl⟩
  | true =>
      cases scope with
      | files paths => exact h.pass disk paths false
      | project =>
          obtain ⟨taken, dirty⟩ := h.takeWaiting
          have passed := taken.pass disk a.takeWaiting.2 true
          simp only [if_true]
          rw [dirty]
          exact passed

/-- What lines up does not matter. -/
theorem Alike.lineUp (h : a.Alike b) : a.lineUp.Alike b.lineUp :=
  ⟨h.config, h.documents, h.gate, h.project, h.publisher, h.declarations, h.engine⟩

end Server

end SvServer
