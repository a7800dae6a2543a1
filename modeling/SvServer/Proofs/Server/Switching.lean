import SvServer.Proofs.Server.Alike
import SvServer.Proofs.Server.Exclusions
import SvServer.Proofs.Server.MacroChange

/-!
# Switching projects

A project that is opened takes the place of the one before. What comes of it is compared with a new
server that has the same settings, the same license and the same open documents, and on which no
other project was ever opened. The two end alike, and what the editor shows is the same, provided
that no pass over documents has begun while the project was opened: such a pass runs on the new
project before its first full pass.
-/

namespace SvServer

namespace Server

/-! ## What passes leave alone -/

section

variable {α : Type} (view : Server → α)

/-- **What neither a pass nor its publications write** is after a pass as it was. -/
theorem view_compile (blind : ∀ (server : Server) project publisher declarations engine,
      view { server with
        project := project, publisher := publisher
        declarations := declarations, engine := engine } = view server)
    (server : Server) (disk : Disk) (scope : PassScope) :
    view (server.compile disk scope).1 = view server := by
  rw [compile, setup?.eq_def]
  cases server.allows scope with
  | false => rfl
  | true =>
      cases scope with
      | files paths =>
          simp only [if_true, publish_fst]
          exact blind server server.project _ _ _
      | project =>
          simp only [if_true, publish_fst, takeWaiting.eq_def]
          cases server.project with
          | none => exact blind server server.project _ _ _
          | some project => exact blind server _ _ _ _

end

theorem licenseFile_compile (server : Server) (disk : Disk) (scope : PassScope) :
    (server.compile disk scope).1.licenseFile = server.licenseFile :=
  view_compile licenseFile (fun _ _ _ _ _ => rfl) server disk scope

/-- Nothing lines up while no time has come. -/
theorem lineUp_of_undue {server : Server}
    (undue : ∀ timer ∈ server.timers, server.clock < timer.due) : server.lineUp = server := by
  have split : (server.timers.partition fun timer => timer.due ≤ server.clock) =
      ([], server.timers) := by
    rw [List.partition_eq_filter_filter]
    refine Prod.ext (List.filter_eq_nil_iff.2 ?_) (List.filter_eq_self.2 ?_)
    · intro timer member
      simpa using undue timer member
    · intro timer member
      simpa using undue timer member
  rw [lineUp, split]
  dsimp only
  rw [List.mergeSort_nil, List.filter_nil, List.map_nil, List.append_nil, List.foldl_nil]

end Server

namespace Turn

theorem runQueue_of_idle {turn : Turn} (idle : turn.server.queue = []) : turn.runQueue = turn := by
  rw [runQueue, idle]
  obtain ⟨server, disk, sent⟩ := turn
  obtain ⟨⟩ := server
  dsimp only at idle
  rw [idle]
  rfl

theorem server_compile_of_idle {turn : Turn} (idle : turn.server.queue = []) (scope : PassScope)
    (allowed : turn.server.allows scope = true) :
    (turn.compile scope).server = (turn.server.compile turn.disk scope).1.lineUp := by
  rw [compile, runQueue_of_idle idle, runPass, if_pos allowed]
  rfl

theorem licenseFile_runQueue (turn : Turn) :
    turn.runQueue.server.licenseFile = turn.server.licenseFile := by
  refine List.foldlRecOn (motive := fun later : Turn =>
    later.server.licenseFile = turn.server.licenseFile) turn.server.queue _ rfl
      fun later kept path _ => ?_
  rw [← kept]
  exact later.server.licenseFile_compile later.disk (.files {path})

end Turn

/-! ## A new server with the same documents -/

/-- The documents of a store are opened, one by one. -/
def Documents.openings (documents : Documents) : List Event :=
  documents.table.toList.map fun entry =>
    .request (.didOpen (some entry.1) entry.2.version entry.2.text)

namespace Server

/-- A server that has done nothing but open documents: it stands as it began, and no pass is due. -/
structure Fresh (server : Server) (disk : Disk) (documents : Documents)
    (state : Server × Disk) : Prop where
  config : state.1.config = server.config
  licenseFile : state.1.licenseFile = server.licenseFile
  gate : state.1.gate = server.gate
  disk : state.2 = disk
  documents : state.1.documents = documents
  queue : state.1.queue = []
  undue : ∀ timer ∈ state.1.timers, state.1.clock < timer.due

/-- What a pass over documents leaves of a new server. -/
theorem Fresh.compile {server : Server} {disk : Disk} {documents : Documents} {turn : Turn}
    (h : Fresh server disk documents (turn.server, turn.disk)) (paths : PathSet) :
    Fresh server disk documents ((turn.compile (.files paths)).server,
      (turn.compile (.files paths)).disk) := by
  have ran := Turn.server_compile_of_idle h.queue (.files paths) rfl
  have waits := view_compile (fun server => (server.timers, server.clock, server.queue))
    (fun _ _ _ _ _ => rfl) turn.server turn.disk (.files paths)
  obtain ⟨timers, rest⟩ := Prod.mk.inj waits
  obtain ⟨clock, queue⟩ := Prod.mk.inj rest
  have stage := (moves_compile turn.server turn.disk (.files paths)).stage_eq
  rw [ran, lineUp_of_undue (by rw [timers, clock]; exact h.undue)]
  constructor
  · exact (config_of_stage stage).trans h.config
  · exact (licenseFile_compile _ _ _).trans h.licenseFile
  · exact (gate_of_stage stage).trans h.gate
  · exact (Turn.disk_compile turn _).trans h.disk
  · exact (documents_of_stage stage).trans h.documents
  · exact queue.trans h.queue
  · dsimp only
    rw [timers, clock]
    exact h.undue

theorem Fresh.didOpen {server : Server} {disk : Disk} {documents : Documents}
    {state : Server × Disk} (h : Fresh server disk documents state) (path : Path) (version : Int)
    (text : String) : Fresh server disk (documents.openDocument path text version)
      (react state (.request (.didOpen (some path) version text))) := by
  let turn : Turn := ⟨{ state.1 with
    documents := state.1.documents.openDocument path text version }, state.2, []⟩
  show Fresh server disk _ ((turn.compileSoon path).server, (turn.compileSoon path).disk)
  rw [Turn.compileSoon]
  dsimp only
  by_cases atOnce : turn.server.config.debounce = 0
  · rw [if_pos atOnce]
    apply Fresh.compile
    exact ⟨h.config, h.licenseFile, h.gate, h.disk, by rw [← h.documents]; rfl, h.queue, h.undue⟩
  · rw [if_neg atOnce]
    refine ⟨h.config, h.licenseFile, h.gate, h.disk, by rw [← h.documents]; rfl, h.queue, ?_⟩
    intro timer member
    rcases List.mem_append.1 member with before | new
    · exact h.undue timer before
    · rw [List.mem_singleton.1 new]
      exact Nat.lt_add_of_pos_right (Nat.pos_of_ne_zero atOnce)

/-- A new server in place of another one, with the same settings and the same license, on which the
same documents were opened. -/
def renewed (state : Server × Disk) : Server × Disk :=
  afterEvents (opening state.1.config state.1.licenseFile state.1.gate, state.2)
    state.1.documents.openings

/-- **A new server has the buffers of the old one**, and no pass is due. -/
theorem fresh_renewed (state : Server × Disk) : Fresh state.1 state.2
    (Documents.empty.openAll state.1.documents.table.toList) (renewed state) := by
  have opens : ∀ (entries : List (Path × Document)) (documents : Documents)
      (current : Server × Disk), Fresh state.1 state.2 documents current →
        Fresh state.1 state.2 (documents.openAll entries) (afterEvents current
          (entries.map fun entry =>
            .request (.didOpen (some entry.1) entry.2.version entry.2.text))) := by
    intro entries
    induction entries with
    | nil => exact fun _ _ fresh => fresh
    | cons first rest ih =>
        intro documents current fresh
        exact ih _ _ (fresh.didOpen first.1 first.2.version first.2.text)
  exact opens _ _ _ ⟨rfl, rfl, rfl, rfl, rfl, rfl, fun _ none => absurd none List.not_mem_nil⟩

end Server

/-! ## The turn that switches -/

namespace Turn

/-- The passes over documents that begin while a project is opened. They run on the new project,
before its first full pass. -/
def beforehand (turn : Turn) : List Path := turn.runQueue.server.lineUp.queue

/-- None begin while no pass has lined up and none is due. -/
theorem beforehand_of_undue {turn : Turn} (idle : turn.server.queue = [])
    (undue : ∀ timer ∈ turn.server.timers, turn.server.clock < timer.due) :
    turn.beforehand = [] := by
  rw [beforehand, runQueue_of_idle idle, Server.lineUp_of_undue undue, idle]

/-- Turns that begin with the same settings, license, buffers and disk. -/
structure BeginAlike (a b : Turn) : Prop where
  config : b.server.config = a.server.config
  licenseFile : b.server.licenseFile = a.server.licenseFile
  gate : b.server.gate = a.server.gate
  documents : a.server.documents.SameBuffers b.server.documents
  disk : b.disk = a.disk

theorem publications_opened (turn : Turn) (project : Project) (followUp : FollowUp) :
    (turn.opened project followUp).publications =
      turn.runQueue.publications ++ turn.runQueue.server.publisher.clears := by
  rw [opened]
  dsimp only
  rw [publications_of_notices (sent_notifyAll _ _), publications_publishing]
  rfl

theorem disk_notifyAll (turn : Turn) (notices : List Notice) :
    (turn.notifyAll notices).disk = turn.disk := by
  rw [notifyAll]
  induction notices generalizing turn with
  | nil => rfl
  | cons first rest ih => rw [List.foldl_cons, ih]; rfl

theorem disk_opened (turn : Turn) (project : Project) (followUp : FollowUp) :
    (turn.opened project followUp).disk = turn.disk := by
  rw [opened]
  dsimp only
  rw [disk_notifyAll]
  exact disk_runQueue turn

variable {a b : Turn}

/-- **With the new project in place the servers are alike.** -/
theorem BeginAlike.alike_opened (h : a.BeginAlike b) (project : Project) (followUp : FollowUp) :
    (a.opened project followUp).server.Alike (b.opened project followUp).server := by
  have stageA := (moves_runQueue a).stage_eq
  have stageB := (moves_runQueue b).stage_eq
  have config : b.runQueue.server.config = a.runQueue.server.config := by
    rw [Server.config_of_stage stageA, Server.config_of_stage stageB, h.config]
  have documents : a.runQueue.server.documents.SameBuffers b.runQueue.server.documents := by
    rw [Server.documents_of_stage stageA, Server.documents_of_stage stageB]
    exact h.documents
  have gate : b.runQueue.server.lineUp.gate = a.runQueue.server.lineUp.gate :=
    (Server.gate_of_stage stageB).trans (h.gate.trans (Server.gate_of_stage stageA).symm)
  have licenseFile : b.runQueue.server.lineUp.licenseFile =
      a.runQueue.server.lineUp.licenseFile :=
    (licenseFile_runQueue b).trans (h.licenseFile.trans (licenseFile_runQueue a).symm)
  have disk : b.runQueue.disk = a.runQueue.disk := by
    rw [disk_runQueue, disk_runQueue, h.disk]
  rw [server_opened, server_opened, gate, licenseFile, disk]
  exact ⟨config, documents, rfl, rfl, rfl, rfl, .refl _⟩

theorem publications_compile_of_idle {turn : Turn} (idle : turn.server.queue = [])
    (scope : PassScope) (allowed : turn.server.allows scope = true) :
    (turn.compile scope).publications =
      turn.publications ++ (turn.server.compile turn.disk scope).2 := by
  rw [compile, runQueue_of_idle idle, runPass, if_pos allowed]
  exact publications_publishing turn _

/-- **Turns that begin alike switch alike**, as long as no pass runs beforehand: the servers end
alike, and what is published after the clears is the same. -/
theorem BeginAlike.setProjectPath (h : a.BeginAlike b) {path : Path} {project : Project}
    {followUp : FollowUp}
    (opens : Project.openRoot a.disk path a.server.config.limits = .ok (project, followUp))
    (idleA : a.beforehand = []) (idleB : b.beforehand = []) :
    (a.setProjectPath path).server.Alike (b.setProjectPath path).server ∧
      ∃ publications,
        (a.setProjectPath path).publications = a.runQueue.publications ++
          a.runQueue.server.publisher.clears ++ publications ∧
        (b.setProjectPath path).publications = b.runQueue.publications ++
          b.runQueue.server.publisher.clears ++ publications := by
  have opened := h.alike_opened project followUp
  have opensB : Project.openRoot b.disk path b.server.config.limits = .ok (project, followUp) := by
    rw [h.disk, h.config, opens]
  have queueA : (a.opened project followUp).server.queue = [] := by
    rw [server_opened]
    exact idleA
  have queueB : (b.opened project followUp).server.queue = [] := by
    rw [server_opened]
    exact idleB
  rw [setProjectPath_of_opens opens, setProjectPath_of_opens opensB, opened.gate]
  by_cases valid : (a.opened project followUp).server.gate.isValid = true
  · -- The first full pass starts from an engine that has seen nothing.
    have validB : (b.opened project followUp).server.gate.isValid = true := by
      rw [opened.gate, valid]
    have disk : (b.opened project followUp).disk = (a.opened project followUp).disk := by
      rw [disk_opened, disk_opened, h.disk]
    obtain ⟨alike, same⟩ := opened.compile (a.opened project followUp).disk .project
    rw [if_pos valid, if_pos valid, server_compile_of_idle queueA .project valid,
      server_compile_of_idle queueB .project validB,
      publications_compile_of_idle queueA .project valid,
      publications_compile_of_idle queueB .project validB, disk, same, publications_opened,
      publications_opened]
    exact ⟨alike.lineUp, _, rfl, rfl⟩
  · rw [if_neg valid, if_neg valid, publications_opened, publications_opened]
    exact ⟨opened, [], (List.append_nil _).symm, (List.append_nil _).symm⟩

end Turn

namespace Server

/-- What the editor shows once a project was switched depends only on what is published after the
clears. -/
theorem received_switch {start : Server × Disk} {events : List Event} {path : Path}
    {source : Path → String} {publications : List Publication}
    (agrees : (afterEvents start events).1.publisher.Agrees source (received start events))
    (sent : let turn : Turn := ⟨(afterEvents start events).1, (afterEvents start events).2, []⟩
      (turn.setProjectPath path).publications = turn.runQueue.publications ++
        turn.runQueue.server.publisher.clears ++ publications) :
    received start (events ++ [.request (.setProjectPath path)]) =
      Display.blank.takeAll publications := by
  let turn : Turn := ⟨(afterEvents start events).1, (afterEvents start events).2, []⟩
  obtain ⟨before, all, leads⟩ := (Turn.ComesTo.refl turn).runQueue.leads
  obtain ⟨source', shown⟩ := agrees.leads leads
  have ran : turn.runQueue.publications = before := all
  have told : Row.told publishing start (events ++ [.request (.setProjectPath path)]) =
      Row.told publishing start events ++ (turn.setProjectPath path).publications :=
    Row.told_concat start events _
  have sent' : (turn.setProjectPath path).publications =
      turn.runQueue.publications ++ turn.runQueue.server.publisher.clears ++ publications := sent
  rw [received, told, sent', ran, Display.takeAll_append, Display.takeAll_append,
    Display.takeAll_append]
  exact congrArg (fun display => Display.takeAll display publications) shown.takeAll_clears

/-- Two servers, with what the editor shows of each, that know and show the same. -/
structure Matches (a b : Server) (shownA shownB : Display) : Prop where
  roots : a.engine.roots = b.engine.roots
  /-- The units are the same, apart from the revisions that they note. -/
  units : ∀ root, (a.engine.unit? root).map UnitReport.content =
    (b.engine.unit? root).map UnitReport.content
  cross : a.engine.cross = b.engine.cross
  declarations : a.declarations = b.declarations
  shown : ∀ path, a.shown path = b.shown path
  /-- The editor shows the same for every URI. -/
  received : shownA = shownB

theorem Matches.of_alike {a b : Server} (h : a.Alike b) (shown : Display) :
    Matches a b shown shown := by
  obtain ⟨units, engine, same⟩ := h.engine
  refine ⟨?_, fun root => (same root).symm, ?_, h.declarations.symm, fun path => ?_, rfl⟩
  · rw [engine]
    rfl
  · rw [engine]
    rfl
  · rw [Server.shown, Server.shown, h.publisher]

/-- What comes before a switch: a project is opened, and a document beside its files. -/
def besideEvents : List Event :=
  [.request (.setProjectPath (.ofString "/p")),
    .request (.didOpen (some (.ofString "/p/new.sv")) 1 "`BAR\n")]

/-- What comes before a switch: two documents are opened, and the time of the second one's pass
comes. -/
def dueEvents : List Event :=
  [.request (.didOpen (some (.ofString "/p/a.sv")) 1 "`BAR\n"),
    .pause 150,
    .request (.didOpen (some (.ofString "/p/b.sv")) 1 "`BAZ\n"),
    .pause 100]

end Server

end SvServer
