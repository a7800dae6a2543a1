import SvServer.Proofs.PathSet
import SvServer.Server

/-!
# What every file is shown

What a file is shown is what it last received. This module says, file by file, what is shown after
a publication, after a clear, and after the publications of a whole pass.
-/

namespace SvServer

/-- The URI of a path does not depend on its spelling. -/
theorem Uri.ofPath?_congr {a b : Path} (h : (a == b) = true) : ofPath? a = ofPath? b := by
  rw [ofPath?, ofPath?, Path.beq_iff.1 h]

/-- What lies beneath one spelling of a path lies beneath the others. -/
theorem Path.isCoveredBy_congr {a b : Path} (h : (a == b) = true) (covers : List Path) :
    a.isCoveredBy covers = b.isCoveredBy covers := by
  simp only [isCoveredBy, isUnder, beq_iff.1 h]

namespace PublishRules

theorem excludes_congr (rules : PublishRules) {a b : Path} (h : (a == b) = true) :
    rules.excludes a = rules.excludes b := Path.isCoveredBy_congr h _

/-- Nothing is let through for an excluded file. -/
theorem kept_of_excludes {rules : PublishRules} {path : Path} (h : rules.excludes path = true)
    (diagnostics : List Diagnostic) : rules.kept path diagnostics = [] := by
  rw [kept, if_pos h]

/-- The rules let nothing through that was not there. -/
theorem mem_of_mem_kept {rules : PublishRules} {path : Path} {diagnostics : List Diagnostic}
    {d : Diagnostic} (h : d ∈ rules.kept path diagnostics) : d ∈ diagnostics := by
  rw [kept] at h
  split at h
  · exact absurd h List.not_mem_nil
  · exact (List.mem_filter.1 h).1

end PublishRules

namespace Publisher

/-- What a file is shown: nothing, if it never received anything. -/
def shown (publisher : Publisher) (path : Path) : List Diagnostic :=
  (publisher.last? path).getD []

theorem last?_send (publisher : Publisher) (path : Path) (diagnostics : List Diagnostic)
    (rules : PublishRules) (other : Path) :
    (publisher.send path diagnostics rules).1.last? other =
      if path == other && (Uri.ofPath? path).isSome then some (rules.kept path diagnostics)
      else publisher.last? other := by
  rw [send]
  cases Uri.ofPath? path with
  | none => simp
  | some uri => simp [last?]

theorem last?_clear (publisher : Publisher) (path other : Path) :
    (publisher.clear path).1.last? other =
      if path == other && (Uri.ofPath? path).isSome then some [] else publisher.last? other := by
  rw [clear]
  cases Uri.ofPath? path with
  | none => simp
  | some uri => simp [last?]

/-- Publishes the reports of several files, one after the other. -/
def sendAll (publisher : Publisher) (rules : PublishRules) (files : List FileReport) : Publisher :=
  files.foldl (fun publisher file => (publisher.send file.path file.diagnostics rules).1) publisher

/-- **A file with a URI is shown what one of its reports says.** -/
theorem last?_sendAll_of_present (rules : PublishRules) {files : List FileReport} {path : Path}
    (hasUri : (Uri.ofPath? path).isSome = true)
    (present : ∃ file ∈ files, (file.path == path) = true) (publisher : Publisher) :
    ∃ file ∈ files, (file.path == path) = true ∧
      (publisher.sendAll rules files).last? path =
        some (rules.kept file.path file.diagnostics) := by
  have hit : ∃ file ∈ files, (file.path == path && (Uri.ofPath? file.path).isSome) = true := by
    obtain ⟨file, member, same⟩ := present
    refine ⟨file, member, ?_⟩
    rw [same, Uri.ofPath?_congr same, hasUri]
    rfl
  obtain ⟨file, member, hit, shown⟩ := read_foldl_of_present last? _
    (fun publisher (file : FileReport) => last?_send publisher file.path file.diagnostics rules)
    hit publisher
  exact ⟨file, member, (Bool.and_eq_true _ _ ▸ hit).1, shown⟩

/-- Files that none of the reports is about keep what they are shown. -/
theorem last?_sendAll_of_absent (rules : PublishRules) {files : List FileReport} {path : Path}
    (absent : ∀ file ∈ files, (file.path == path) = false) (publisher : Publisher) :
    (publisher.sendAll rules files).last? path = publisher.last? path := by
  apply read_foldl_of_absent last? _ (fun publisher (file : FileReport) =>
    last?_send publisher file.path file.diagnostics rules)
  intro file member
  rw [absent file member, Bool.false_and]

/-- A file without a URI keeps what it is shown. -/
theorem last?_sendAll_of_no_uri (rules : PublishRules) (files : List FileReport) {path : Path}
    (noUri : (Uri.ofPath? path).isSome = false) (publisher : Publisher) :
    (publisher.sendAll rules files).last? path = publisher.last? path := by
  apply read_foldl_of_absent last? _ (fun publisher (file : FileReport) =>
    last?_send publisher file.path file.diagnostics rules)
  intro file _
  cases same : (file.path == path) with
  | false => rfl
  | true => rw [Uri.ofPath?_congr same, noUri, Bool.and_false]

/-- Clears several files, one after the other. -/
def clearAll (publisher : Publisher) (paths : List Path) : Publisher :=
  paths.foldl (fun publisher path => (publisher.clear path).1) publisher

/-- **Clears empty the files they name and no others.** -/
theorem last?_clearAll (publisher : Publisher) (paths : List Path) (path : Path) :
    (publisher.clearAll paths).last? path =
      if paths.contains path && (Uri.ofPath? path).isSome then some []
      else publisher.last? path := by
  have hits : (paths.any fun other => other == path && (Uri.ofPath? other).isSome) =
      (paths.contains path && (Uri.ofPath? path).isSome) := by
    rw [← List.any_beq', List.and_any_distrib_right]
    congr 1
    funext other
    cases same : (other == path) with
    | false => rfl
    | true => rw [Uri.ofPath?_congr same]
  rw [← hits]
  exact read_foldl last? _ last?_clear (fun _ _ _ => rfl) publisher

end Publisher

namespace Server

/-- What a file is shown at present. -/
def shown (server : Server) (path : Path) : List Diagnostic := server.publisher.shown path

/-- The first part of a fold that also collects what is sent. -/
theorem foldl_fst {α β γ : Type} (step : α → β → α × Option γ) (items : List β) (start : α)
    (sent : List γ) :
    (items.foldl (fun (state, sent) item =>
      let (state, publication) := step state item
      (state, sent ++ publication.toList)) (start, sent)).1 =
      items.foldl (fun state item => (step state item).1) start := by
  induction items generalizing start sent with
  | nil => rfl
  | cons first rest ih => exact ih ..

theorem publish_fst (server : Server) (files : List FileReport) :
    (server.publish files).1 = { server with
      publisher := server.publisher.sendAll server.publishRules (files.filter fun file =>
        server.documents.revision? file.path == file.revision) } := by
  have sent := foldl_fst (fun publisher (file : FileReport) =>
    publisher.send file.path file.diagnostics server.publishRules)
    (files.filter fun file => server.documents.revision? file.path == file.revision)
    server.publisher []
  exact congrArg (fun publisher : Publisher => { server with publisher := publisher }) sent

theorem clear_fst (server : Server) (paths : List Path) :
    (server.clear paths).1 = { server with publisher := server.publisher.clearAll paths } := by
  have sent := foldl_fst (fun publisher path => Publisher.clear publisher path) paths
    server.publisher []
  exact congrArg (fun publisher : Publisher => { server with publisher := publisher }) sent

end Server

end SvServer
