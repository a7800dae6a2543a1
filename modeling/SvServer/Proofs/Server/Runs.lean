import SvServer.Proofs.Engine.Results
import SvServer.Proofs.Server.Moves

/-!
# Runs of the server

A run is any sequence of requests, pauses and changes of the disk from outside; each turn ends
before the next one begins. Along every run the index of the engine leads both ways, only roots have
read anything, and everything that a file is shown is among the diagnostics that the engine has for
it. The last one needs that every change of a diagnostic is published: a file that a pass does not
touch keeps its diagnostics, and one that it touches is shown nothing but what the engine has now.
-/

namespace SvServer

/-- What happens to a server. -/
inductive Event where
  | request (request : Request)
  | pause (milliseconds : Nat)
  /-- Something else changes the disk. -/
  | edit (disk : Disk)

namespace Server

/-- A server that has seen nothing, except perhaps a license. -/
def opening (config : Config) (licenseFile : String) (gate : License.Gate) : Server :=
  { start config licenseFile with gate := gate }

/-- One event in the life of a server and its disk. -/
def react (state : Server × Disk) : Event → Server × Disk
  | .request request =>
    let (server, disk, _) := state.1.respond state.2 request
    (server, disk)
  | .pause milliseconds =>
    let (server, disk, _) := state.1.wait state.2 milliseconds
    (server, disk)
  | .edit disk => (state.1, disk)

/-- Server and disk after a run. -/
def afterEvents (state : Server × Disk) (events : List Event) : Server × Disk :=
  events.foldl react state

/-- **Every event is taken in, and then the server goes on by itself.** -/
theorem handles_react (state : Server × Disk) (event : Event) :
    Turn.Handles state.1 (react state event).1 := by
  cases event with
  | request request => exact Turn.handles_handle ⟨state.1, state.2, []⟩ request
  | pause milliseconds => exact .of_moves (Turn.moves_wait ⟨state.1, state.2, []⟩ milliseconds)
  | edit disk => exact .keep rfl rfl

/-- **What moves keep and a new start gives holds along every run.** -/
theorem invariant_afterEvents {holds : Server → Prop}
    (depends : ∀ {before after : Server}, after.engine = before.engine →
      after.publisher = before.publisher → holds before → holds after)
    (fresh : ∀ server : Server, server.engine = .empty → server.publisher = .empty → holds server)
    (move : ∀ {before after : Server}, Move before after → holds before → holds after)
    (events : List Event) {state : Server × Disk} (h : holds state.1) :
    holds (afterEvents state events).1 := by
  have moves : ∀ {before after : Server}, Moves before after → holds before → holds after := by
    intro before after steps start
    induction steps with
    | refl => exact start
    | tail _ step ih => exact move step ih
  induction events generalizing state with
  | nil => exact h
  | cons event rest ih =>
      apply ih
      -- What is taken in leaves engine and publisher alone, or starts both anew.
      obtain ⟨taken, takes, goesOn⟩ := handles_react state event
      rcases takes with ⟨engine, publisher⟩ | ⟨engine, publisher⟩
      · exact moves goesOn (depends engine publisher h)
      · exact moves goesOn (fresh taken engine publisher)

/-! ## A pass as a move -/

section Pass

variable {server : Server} {input : PassSetup}

/-- The server after a pass and its publications. -/
def afterPass (server : Server) (input : PassSetup) : Server :=
  ((server.compute input).1.publish (server.compute input).2).1

theorem reports_eq (server : Server) (input : PassSetup) :
    (server.compute input).2 = (server.engine.run input).2.touched.toList.map fun path =>
      ⟨path, (server.engine.run input).1.diagnosticsOf path, input.sources.revision path⟩ := rfl

theorem engine_afterPass (server : Server) (input : PassSetup) :
    (server.afterPass input).engine = (server.engine.run input).1 := by
  rw [afterPass, publish_fst]
  rfl

/-- A pass that sees the open documents computes reports that are all current. -/
theorem current_reports
    (revision : ∀ path, input.sources.revision path = server.documents.revision? path) :
    ((server.compute input).2.filter fun file =>
      server.documents.revision? file.path == file.revision) = (server.compute input).2 := by
  rw [List.filter_eq_self]
  intro file member
  rw [reports_eq] at member
  obtain ⟨path, -, rfl⟩ := List.mem_map.1 member
  rw [revision]
  exact BEq.rfl

/-- So all that it computed is published. -/
theorem publisher_afterPass
    (revision : ∀ path, input.sources.revision path = server.documents.revision? path) :
    (server.afterPass input).publisher =
      server.publisher.sendAll server.publishRules (server.compute input).2 := by
  have current := current_reports revision
  rw [afterPass, publish_fst]
  exact congrArg (server.publisher.sendAll server.publishRules) current

/-- **A touched file is shown what the engine has for it.** -/
theorem last?_afterPass_of_touched
    (revision : ∀ path, input.sources.revision path = server.documents.revision? path)
    {path : Path} (hasUri : (Uri.ofPath? path).isSome = true)
    (touched : (server.engine.run input).2.touched.contains path = true) :
    ∃ spelled : Path, (spelled == path) = true ∧ (server.afterPass input).publisher.last? path =
      some (server.publishRules.kept spelled ((server.afterPass input).engine.diagnosticsOf path))
    := by
  obtain ⟨member, listed, same⟩ := PathSet.exists_mem_toList touched
  have present : ∃ file ∈ (server.compute input).2, (file.path == path) = true := by
    rw [reports_eq]
    exact ⟨_, List.mem_map_of_mem listed, BEq.symm same⟩
  obtain ⟨file, reported, here, last⟩ := Publisher.last?_sendAll_of_present server.publishRules
    hasUri present server.publisher
  rw [reports_eq] at reported
  obtain ⟨spelled, -, rfl⟩ := List.mem_map.1 reported
  refine ⟨spelled, here, ?_⟩
  rw [publisher_afterPass revision, last, engine_afterPass, Engine.diagnosticsOf_congr _ here]

/-- A file that the pass does not touch is shown what it was shown. -/
theorem last?_afterPass_of_untouched
    (revision : ∀ path, input.sources.revision path = server.documents.revision? path)
    {path : Path} (untouched : (server.engine.run input).2.touched.contains path = false) :
    (server.afterPass input).publisher.last? path = server.publisher.last? path := by
  rw [publisher_afterPass revision]
  apply Publisher.last?_sendAll_of_absent
  intro file reported
  rw [reports_eq] at reported
  obtain ⟨spelled, listed, rfl⟩ := List.mem_map.1 reported
  rw [Bool.eq_false_iff]
  intro same
  -- Reports are about touched files only.
  have touched := PathSet.contains_of_mem_toList listed
  rw [PathSet.contains_congr _ same, untouched] at touched
  exact absurd touched (by decide)

end Pass

/-! ## What holds along every run -/

/-- The engine's books are in order, and nothing is shown that the engine does not have. -/
structure Truthful (server : Server) : Prop where
  inverse : server.engine.index.Inverse
  readers : server.engine.ReadByRoots
  eligible : server.engine.RootsEligible
  /-- Only files with a URI ever received anything -/
  hasUri : ∀ path, (server.publisher.last? path).isSome = true → (Uri.ofPath? path).isSome = true
  shown : ∀ path, ∀ d ∈ server.shown path,
    d.content ∈ (server.engine.diagnosticsOf path).map Diagnostic.content

variable {before after : Server}

theorem Truthful.of_eq (engine : after.engine = before.engine)
    (publisher : after.publisher = before.publisher) (h : before.Truthful) : after.Truthful := by
  constructor
  · rw [engine]; exact h.inverse
  · rw [engine]; exact h.readers
  · rw [engine]; exact h.eligible
  · rw [publisher]; exact h.hasUri
  · rw [engine]; unfold Server.shown; rw [publisher]; exact h.shown

theorem truthful_of_empty (server : Server) (engine : server.engine = .empty)
    (publisher : server.publisher = .empty) : server.Truthful := by
  constructor
  · rw [engine]; exact Include.ReadIndex.Inverse.empty
  · rw [engine]; exact Engine.readByRoots_empty
  · rw [engine]; exact Engine.rootsEligible_empty
  · intro path received
    rw [publisher] at received
    exact absurd received (by simp [Publisher.last?, Publisher.empty])
  · intro path d member
    rw [Server.shown, publisher] at member
    exact absurd member (by simp [Publisher.shown, Publisher.last?, Publisher.empty])

/-- Where only files with a URI ever received anything, other files are shown nothing. -/
theorem shown_of_no_uri {server : Server}
    (hasUri : ∀ path, (server.publisher.last? path).isSome = true →
      (Uri.ofPath? path).isSome = true)
    {path : Path} (noUri : (Uri.ofPath? path).isSome = false) : server.shown path = [] := by
  rw [shown, Publisher.shown]
  cases received : server.publisher.last? path with
  | none => rfl
  | some diagnostics =>
      rw [hasUri path (by rw [received]; rfl)] at noUri
      exact absurd noUri (by decide)

/-- A pass sends nothing to files without a URI. -/
theorem Truthful.hasUri_afterPass {server : Server} (h : server.Truthful) {input : PassSetup}
    (revision : ∀ path, input.sources.revision path = server.documents.revision? path)
    (path : Path) (received : ((server.afterPass input).publisher.last? path).isSome = true) :
    (Uri.ofPath? path).isSome = true := by
  by_contra noUri
  rw [Bool.not_eq_true] at noUri
  rw [publisher_afterPass revision, Publisher.last?_sendAll_of_no_uri _ _ noUri] at received
  rw [h.hasUri path received] at noUri
  exact absurd noUri (by decide)

/-- **A pass shows nothing that the engine does not have.** -/
theorem Truthful.pass {server : Server} (h : server.Truthful) (input : PassSetup)
    (revision : ∀ path, input.sources.revision path = server.documents.revision? path) :
    (server.afterPass input).Truthful := by
  have hasUri := h.hasUri_afterPass revision
  constructor
  · rw [engine_afterPass]; exact (Engine.grownFrom_run h.inverse input).inverse
  · rw [engine_afterPass]; exact h.readers.run input
  · rw [engine_afterPass]; exact h.eligible.run input
  · exact hasUri
  · intro path d member
    cases touched : (server.engine.run input).2.touched.contains path with
    | true =>
        cases uri : (Uri.ofPath? path).isSome with
        | true =>
            -- The file is shown what the engine has for it, as far as the rules let it through.
            obtain ⟨spelled, -, last⟩ := last?_afterPass_of_touched revision uri touched
            rw [Server.shown, Publisher.shown, last] at member
            exact List.mem_map_of_mem (PublishRules.mem_of_mem_kept member)
        | false =>
            rw [shown_of_no_uri hasUri uri] at member
            exact absurd member List.not_mem_nil
    | false =>
        -- Neither what the file is shown nor what the engine has for it changes.
        rw [Server.shown, Publisher.shown, last?_afterPass_of_untouched revision touched] at member
        have same := Engine.diagnosticsOf_run_of_untouched h.inverse touched
        rw [engine_afterPass, Diagnostic.list_beq_iff.1 same]
        exact h.shown path d member

theorem Truthful.clear {server : Server} (h : server.Truthful) (paths : List Path) :
    (server.clear paths).1.Truthful := by
  rw [clear_fst]
  constructor
  · exact h.inverse
  · exact h.readers
  · exact h.eligible
  · intro path received
    rw [Publisher.last?_clearAll] at received
    split at received
    · rename_i cleared
      rw [Bool.and_eq_true] at cleared
      exact cleared.2
    · exact h.hasUri path received
  · intro path d member
    rw [Server.shown, Publisher.shown, Publisher.last?_clearAll] at member
    split at member
    · exact absurd member List.not_mem_nil
    · exact h.shown path d member

theorem Truthful.move (move : Move before after) (h : before.Truthful) : after.Truthful := by
  cases move with
  | idle stage engine publisher => exact h.of_eq engine publisher
  | pass input revision => exact h.pass input revision
  | clear paths => exact h.clear paths

theorem Truthful.moves (moves : Moves before after) (h : before.Truthful) : after.Truthful := by
  induction moves with
  | refl => exact h
  | tail _ step ih => exact ih.move step

/-- Every event leaves it so that nothing is shown that the engine does not have. -/
theorem Truthful.react {state : Server × Disk} (h : state.1.Truthful) (event : Event) :
    (react state event).1.Truthful :=
  invariant_afterEvents Truthful.of_eq truthful_of_empty Truthful.move [event] h

/-- What a server and its disk can come to. -/
def Reached (state : Server × Disk) : Prop :=
  ∃ config licenseFile gate disk events,
    state = afterEvents (opening config licenseFile gate, disk) events

/-- **Along every run nothing is shown that the engine does not have.** -/
theorem Reached.truthful {state : Server × Disk} (h : Reached state) : state.1.Truthful := by
  obtain ⟨config, licenseFile, gate, disk, events, rfl⟩ := h
  exact invariant_afterEvents Truthful.of_eq truthful_of_empty Truthful.move events
    (truthful_of_empty _ rfl rfl)

end Server

end SvServer
