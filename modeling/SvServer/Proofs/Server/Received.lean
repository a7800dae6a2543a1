import SvServer.Proofs.Display
import SvServer.Proofs.Server.Course

/-!
# What the editor receives from a server

Everything that a server publishes comes from calls of its publisher, and every change of the record
as well. So along every run the editor shows what the server has on record.
-/

namespace SvServer

open Publisher (Call)

/-! ## From one record to another -/

namespace Publisher

/-- Some calls lead from one record to another, and make these publications. -/
def Leads (before after : Publisher) (publications : List Publication) : Prop :=
  ∃ calls, after = Row.after perform before calls ∧ publications = Row.told perform before calls

theorem Leads.refl (publisher : Publisher) : Leads publisher publisher [] := ⟨[], rfl, rfl⟩

theorem Leads.trans {before between after : Publisher} {first second : List Publication}
    (h : before.Leads between first) (h' : between.Leads after second) :
    before.Leads after (first ++ second) := by
  obtain ⟨calls, rfl, rfl⟩ := h
  obtain ⟨more, rfl, rfl⟩ := h'
  exact ⟨calls ++ more, (Row.after_append before calls more).symm,
    (Row.told_append before calls more).symm⟩

/-- **Where the editor shows what is on record, calls keep it so.** -/
theorem Agrees.leads {before after : Publisher} {source : Path → String} {display : Display}
    {publications : List Publication} (h : before.Agrees source display)
    (leads : before.Leads after publications) :
    ∃ source', after.Agrees source' (display.takeAll publications) := by
  obtain ⟨calls, rfl, rfl⟩ := leads
  induction calls generalizing before source display with
  | nil => exact ⟨source, h⟩
  | cons first rest ih =>
      rw [Row.told, Display.takeAll_append]
      exact ih (h.perform first)

end Publisher

namespace Server

/-- What a publisher is asked for after a pass. -/
def sends (rules : PublishRules) (files : List FileReport) : List Call :=
  files.map fun file => .send file.path file.diagnostics rules

/-- **What a pass publishes**: the reports that are still current, sent one after the other. -/
theorem publish_eq (server : Server) (files : List FileReport) :
    let calls := sends server.publishRules (files.filter fun file =>
      server.documents.revision? file.path == file.revision)
    server.publish files =
      ({ server with publisher := Row.after Publisher.perform server.publisher calls },
        Row.told Publisher.perform server.publisher calls) := by
  have folded := Row.foldl_eq Publisher.perform
    (fun file : FileReport => .send file.path file.diagnostics server.publishRules)
    (files.filter fun file => server.documents.revision? file.path == file.revision)
    server.publisher []
  exact congrArg (fun result : Publisher × List Publication =>
    ({ server with publisher := result.1 }, result.2)) folded

theorem clear_eq (server : Server) (paths : List Path) :
    server.clear paths = ({ server with
      publisher := Row.after Publisher.perform server.publisher (paths.map .clear) },
        Row.told Publisher.perform server.publisher (paths.map .clear)) := by
  have folded := Row.foldl_eq Publisher.perform Call.clear paths server.publisher []
  exact congrArg (fun result : Publisher × List Publication =>
    ({ server with publisher := result.1 }, result.2)) folded

theorem leads_publish (server : Server) (files : List FileReport) :
    server.publisher.Leads (server.publish files).1.publisher (server.publish files).2 := by
  rw [publish_eq]
  exact ⟨_, rfl, rfl⟩

theorem leads_clear (server : Server) (paths : List Path) :
    server.publisher.Leads (server.clear paths).1.publisher (server.clear paths).2 := by
  rw [clear_eq]
  exact ⟨_, rfl, rfl⟩

theorem leads_compile (server : Server) (disk : Disk) (scope : PassScope) :
    server.publisher.Leads (server.compile disk scope).1.publisher
      (server.compile disk scope).2 := by
  rw [compile]
  cases started : server.setup? disk scope with
  | none => exact .refl _
  | some start =>
      obtain ⟨taken, input⟩ := start
      obtain ⟨-, -, publisher, -⟩ := setup?_eq_some started
      rw [← publisher]
      exact leads_publish (taken.compute input).1 (taken.compute input).2

end Server

/-! ## From one turn to another -/

/-- The publication, if something sent is one. -/
def Outgoing.publication? : Outgoing → Option Publication
  | .publication sent => some sent
  | .notice _ => none

namespace Turn

/-- What was published so far. -/
def publications (turn : Turn) : List Publication := turn.sent.filterMap Outgoing.publication?

theorem publications_publishing (turn : Turn) (result : Server × List Publication) :
    (turn.publishing result).publications = turn.publications ++ result.2 := by
  have all : (result.2.map Outgoing.publication).filterMap Outgoing.publication? = result.2 := by
    rw [List.filterMap_map]
    exact List.filterMap_some
  rw [publications, publishing, List.filterMap_append, all]
  rfl

/-- Notices publish nothing. -/
theorem publications_of_notices {turn after : Turn} {notices : List Notice}
    (sent : after.sent = turn.sent ++ notices.map .notice) :
    after.publications = turn.publications := by
  have none : (notices.map Outgoing.notice).filterMap Outgoing.publication? = [] := by
    rw [List.filterMap_map, List.filterMap_eq_nil_iff]
    exact fun _ _ => rfl
  rw [publications, sent, List.filterMap_append, none, List.append_nil]
  rfl

/-- **The record follows what is published**, step by step. -/
theorem Course.leads {start turn : Turn} {passes : List (Turn × PassScope)}
    (course : Course start passes turn) :
    ∃ publications, turn.publications = start.publications ++ publications ∧
      start.server.publisher.Leads turn.server.publisher publications := by
  induction course with
  | begin => exact ⟨[], (List.append_nil _).symm, .refl _⟩
  | book _ _ publisher _ sent ih =>
      obtain ⟨notices, sent⟩ := sent
      rw [publications_of_notices sent, publisher]
      exact ih
  | license _ _ ih => exact ih
  | @pass _ turn scope _ _ ih =>
      obtain ⟨publications, all, leads⟩ := ih
      rw [publications_publishing, all, List.append_assoc]
      exact ⟨_, rfl, leads.trans (turn.server.leads_compile turn.disk scope)⟩
  | @clear _ turn _ paths ih =>
      obtain ⟨publications, all, leads⟩ := ih
      rw [publications_publishing, all, List.append_assoc]
      exact ⟨_, rfl, leads.trans (turn.server.leads_clear paths)⟩
  | restart _ ih =>
      obtain ⟨publications, all, leads⟩ := ih
      rw [publications_publishing, all, List.append_assoc]
      exact ⟨_, rfl, leads.trans ⟨[.reset], rfl, (List.append_nil _).symm⟩⟩

theorem ComesTo.leads {start turn : Turn} (h : start.ComesTo turn) :
    ∃ publications, turn.publications = start.publications ++ publications ∧
      start.server.publisher.Leads turn.server.publisher publications := by
  obtain ⟨passes, course⟩ := h
  exact course.leads

end Turn

/-! ## Runs -/

namespace Server

/-- One event in the life of a server, with what is published in it. -/
def publishing (state : Server × Disk) (event : Event) : (Server × Disk) × List Publication :=
  (react state event, (turnOf state event).publications)

/-- What the editor shows after a run, if it showed nothing before. -/
def received (state : Server × Disk) (events : List Event) : Display :=
  Display.blank.takeAll (Row.told publishing state events)

theorem leads_react (state : Server × Disk) (event : Event) :
    state.1.publisher.Leads (react state event).1.publisher
      (turnOf state event).publications := by
  obtain ⟨publications, all, leads⟩ := (comesTo_turnOf state event).leads
  rw [react_eq, all]
  exact leads

theorem leads_afterEvents (events : List Event) (state : Server × Disk) :
    state.1.publisher.Leads (afterEvents state events).1.publisher
      (Row.told publishing state events) := by
  induction events generalizing state with
  | nil => exact .refl _
  | cons event rest ih => exact (leads_react state event).trans (ih (react state event))

/-- **Along every run the editor shows what the server has on record**, file by file. -/
theorem agrees_received (config : Config) (licenseFile : String) (gate : License.Gate)
    (disk : Disk) (events : List Event) :
    ∃ source, (afterEvents (opening config licenseFile gate, disk) events).1.publisher.Agrees source
      (received (opening config licenseFile gate, disk) events) :=
  (Publisher.agrees_empty fun _ => "").leads (leads_afterEvents events _)

end Server

end SvServer
