import Mathlib.Data.List.Induction
import SvServer.Proofs.Server.Publishing
import SvServer.Proofs.Uri

/-!
# What the editor shows

The editor shows for each URI what it last received for it. The publisher keeps a record of what it
sent, path by path. Since no two paths share a URI, the two agree after any sends, clears and
resets: what is shown for a path is what is on record for it, under the source that it was last sent
with. A reset clears only the files that show something, and that is enough.
-/

namespace SvServer

/-- What the editor shows for each URI. -/
abbrev Display := String → List SentDiagnostic

namespace Display

/-- An editor that shows nothing. -/
def blank : Display := fun _ => []

/-- A publication replaces what was shown for its URI. -/
def take (display : Display) (publication : Publication) : Display :=
  fun uri => if publication.uri == uri then publication.diagnostics else display uri

/-- Takes publications in order. -/
def takeAll (display : Display) (publications : List Publication) : Display :=
  publications.foldl take display

theorem takeAll_append (display : Display) (earlier later : List Publication) :
    display.takeAll (earlier ++ later) = (display.takeAll earlier).takeAll later :=
  List.foldl_append

/-- Clears leave nothing where they arrive, and all else as it was. -/
theorem takeAll_of_clears {publications : List Publication}
    (clears : ∀ publication ∈ publications, publication.diagnostics = []) (display : Display)
    (uri : String) : display.takeAll publications uri =
      if publications.any fun publication => publication.uri == uri then [] else display uri := by
  have writes : ∀ (display : Display) publication uri, display.take publication uri =
      if publication.uri == uri then publication.diagnostics else display uri := fun _ _ _ => rfl
  exact read_foldl (fun (display : Display) uri => display uri) _ writes
    (fun publication member _ => clears publication member) display

end Display

namespace Publisher

/-- What a publisher is asked for. -/
inductive Call where
  | send (path : Path) (diagnostics : List Diagnostic) (rules : PublishRules)
  | clear (path : Path)
  /-- Clears all that is shown, and forgets the record. -/
  | reset

/-- Answers a call. Also gives the publications that this makes. -/
def perform (publisher : Publisher) : Call → Publisher × List Publication
  | .send path diagnostics rules =>
    let (after, publication) := publisher.send path diagnostics rules
    (after, publication.toList)
  | .clear path =>
    let (after, publication) := publisher.clear path
    (after, publication.toList)
  | .reset => (.empty, publisher.clears)

/-- The source that a call sends a path under, if it sends it. -/
def Call.source? (path : Path) : Call → Option String
  | .send sent _ rules => if sent == path then some rules.source else none
  | _ => none

/-- The source that a path was last sent under. -/
def lastSource (calls : List Call) (path : Path) : String :=
  (calls.filterMap (Call.source? path)).getLastD ""

/-- The record after some calls. -/
def recorded (calls : List Call) : Publisher := Row.after perform .empty calls

/-- What the editor shows after some calls. -/
def displayed (calls : List Call) : Display :=
  Display.blank.takeAll (Row.told perform .empty calls)

/-! ## One call -/

/-- The editor shows what is on record, under these sources. -/
structure Agrees (publisher : Publisher) (source : Path → String) (display : Display) :
    Prop where
  shown : ∀ path uri, Uri.ofPath? path = some uri →
    display uri = (publisher.shown path).map fun d => d.sent (source path)
  /-- For what is no file's URI nothing is shown. -/
  elsewhere : ∀ uri, (∀ path, Uri.ofPath? path ≠ some uri) → display uri = []

theorem agrees_empty (source : Path → String) : Agrees .empty source .blank where
  shown _ _ _ := by simp [Display.blank, shown, last?, empty]
  elsewhere _ _ := rfl

variable {publisher : Publisher} {source : Path → String} {display : Display}

/-- **What is written for one path is shown for it**, and for no other. -/
theorem Agrees.write (h : publisher.Agrees source display) {path : Path} {publication : Publication}
    (named : Uri.ofPath? path = some publication.uri) {after : Publisher} {source' : Path → String}
    (here : ∀ other, (path == other) = true →
      publication.diagnostics = (after.shown other).map fun d => d.sent (source' other))
    (elsewhere : ∀ other, (path == other) = false →
      after.shown other = publisher.shown other ∧ source' other = source other) :
    after.Agrees source' (display.take publication) where
  shown other uri of := by
    rw [Display.take]
    cases same : (path == other) with
    | true =>
        have uris : publication.uri = uri :=
          Option.some.inj (named.symm.trans ((Uri.ofPath?_congr same).trans of))
        rw [if_pos (beq_iff_eq.2 uris), here other same]
    | false =>
        have uris : publication.uri ≠ uri := by
          intro uris
          rw [uris] at named
          rw [Uri.ofPath?_injective named of] at same
          exact absurd same (by decide)
        rw [if_neg (by simpa using uris), h.shown other uri of, (elsewhere other same).1,
          (elsewhere other same).2]
  elsewhere uri none := by
    have uris : publication.uri ≠ uri := fun uris => none path (uris ▸ named)
    rw [Display.take, if_neg (by simpa using uris), h.elsewhere uri none]

/-- What shows something is among the files to be cleared. -/
theorem exists_mem_filesShown {path : Path} (something : publisher.shown path ≠ []) :
    ∃ spelled ∈ publisher.filesShown, (path == spelled) = true := by
  rw [Publisher.shown, last?] at something
  cases stored : publisher.published[path]? with
  | none =>
      rw [stored] at something
      exact absurd rfl something
  | some diagnostics =>
      rw [stored, Option.getD_some] at something
      obtain ⟨spelled, same, listed⟩ := PathMap.exists_mem_toList stored
      refine ⟨spelled, List.mem_map.2 ⟨(spelled, diagnostics), ?_, rfl⟩, same⟩
      exact List.mem_filter.2 ⟨listed, by simpa using something⟩

/-- **After the clears nothing is shown.** -/
theorem Agrees.takeAll_clears (h : publisher.Agrees source display) :
    display.takeAll publisher.clears = .blank := by
  have clears : ∀ publication ∈ publisher.clears, publication.diagnostics = [] := by
    intro publication member
    obtain ⟨path, -, made⟩ := List.mem_filterMap.1 member
    obtain ⟨uri, -, rfl⟩ := Option.map_eq_some_iff.1 made
    rfl
  funext uri
  rw [Display.takeAll_of_clears clears, Display.blank]
  split
  · rfl
  · rename_i missed
    by_cases file : ∃ path, Uri.ofPath? path = some uri
    · obtain ⟨path, of⟩ := file
      rw [h.shown path uri of, List.map_eq_nil_iff]
      by_contra something
      obtain ⟨spelled, listed, same⟩ := exists_mem_filesShown something
      refine missed (List.any_eq_true.2 ⟨⟨uri, []⟩, List.mem_filterMap.2 ⟨spelled, listed, ?_⟩, ?_⟩)
      · rw [← Uri.ofPath?_congr same, of]
        rfl
      · exact beq_self_eq_true uri
    · exact h.elsewhere uri fun path of => file ⟨path, of⟩

/-- Sending keeps the agreement: what is kept is shown under the new source. -/
theorem Agrees.send (h : publisher.Agrees source display) (path : Path)
    (diagnostics : List Diagnostic) (rules : PublishRules) :
    (publisher.perform (.send path diagnostics rules)).1.Agrees
      (fun other => ((Call.send path diagnostics rules).source? other).getD (source other))
      (display.takeAll (publisher.perform (.send path diagnostics rules)).2) := by
  cases of : Uri.ofPath? path with
  | none =>
      -- A file without a URI is left alone, and so is what is said of it.
      have nothing : publisher.perform (.send path diagnostics rules) = (publisher, []) := by
        simp only [Publisher.perform, Publisher.send, of, Option.toList_none]
      rw [nothing]
      refine ⟨fun other uri named => ?_, h.elsewhere⟩
      have apart : (path == other) = false := by
        rw [Bool.eq_false_iff]
        intro same
        rw [Uri.ofPath?_congr same, named] at of
        cases of
      rw [Call.source?, apart]
      exact h.shown other uri named
  | some uri =>
      have sent : display.takeAll (publisher.perform (.send path diagnostics rules)).2 =
          display.take ⟨uri, (rules.kept path diagnostics).map fun d => d.sent rules.source⟩ := by
        simp only [Publisher.perform, Publisher.send, of, Option.toList_some]
        rfl
      rw [sent]
      have last := last?_send publisher path diagnostics rules
      refine h.write of (fun other same => ?_) fun other apart => ?_
      · rw [Publisher.shown, Publisher.perform, last, same, of, Call.source?, if_pos same]
        rfl
      · rw [Publisher.shown, Publisher.perform, last, apart, Call.source?, apart]
        exact ⟨rfl, rfl⟩

/-- Clearing a file keeps the agreement: nothing is shown for it. -/
theorem Agrees.clear (h : publisher.Agrees source display) (path : Path) :
    (publisher.perform (.clear path)).1.Agrees source
      (display.takeAll (publisher.perform (.clear path)).2) := by
  cases of : Uri.ofPath? path with
  | none =>
      have nothing : publisher.perform (.clear path) = (publisher, []) := by
        simp only [Publisher.perform, Publisher.clear, of, Option.toList_none]
      rw [nothing]
      exact h
  | some uri =>
      have sent : display.takeAll (publisher.perform (.clear path)).2 = display.take ⟨uri, []⟩ := by
        simp only [Publisher.perform, Publisher.clear, of, Option.toList_some]
        rfl
      rw [sent]
      have last := last?_clear publisher path
      refine h.write of (fun other same => ?_) fun other apart => ?_
      · rw [Publisher.shown, Publisher.perform, last, same, of]
        rfl
      · rw [Publisher.shown, Publisher.perform, last, apart]
        exact ⟨rfl, rfl⟩

/-- **Every call keeps the editor and the record in agreement.** -/
theorem Agrees.perform (h : publisher.Agrees source display) (call : Call) :
    (publisher.perform call).1.Agrees (fun path => (call.source? path).getD (source path))
      (display.takeAll (publisher.perform call).2) := by
  cases call with
  | send path diagnostics rules => exact h.send path diagnostics rules
  | clear path => exact h.clear path
  | reset =>
      show empty.Agrees source (display.takeAll publisher.clears)
      rw [h.takeAll_clears]
      exact agrees_empty source

/-- The rules hold for all that is sent. -/
theorem mem_perform_send {path : Path} {diagnostics : List Diagnostic} {rules : PublishRules}
    {publication : Publication}
    (made : publication ∈ (publisher.perform (.send path diagnostics rules)).2) :
    Uri.ofPath? path = some publication.uri ∧
      publication.diagnostics = (rules.kept path diagnostics).map fun d => d.sent rules.source := by
  cases of : Uri.ofPath? path with
  | none =>
      simp only [Publisher.perform, send, of, Option.toList_none] at made
      exact absurd made List.not_mem_nil
  | some uri =>
      simp only [Publisher.perform, send, of, Option.toList_some, List.mem_singleton] at made
      rw [made]
      exact ⟨rfl, rfl⟩

/-! ## Any calls -/

theorem lastSource_concat (calls : List Call) (call : Call) (path : Path) :
    lastSource (calls ++ [call]) path = (call.source? path).getD (lastSource calls path) := by
  rw [lastSource, List.filterMap_append]
  cases source : call.source? path with
  | none =>
      rw [List.filterMap_cons_none source, List.filterMap_nil, List.append_nil]
      rfl
  | some text =>
      rw [List.filterMap_cons_some source, List.filterMap_nil, List.getLastD_concat]
      rfl

theorem displayed_concat (calls : List Call) (call : Call) :
    displayed (calls ++ [call]) = (displayed calls).takeAll ((recorded calls).perform call).2 := by
  rw [displayed, Row.told_concat, Display.takeAll_append]
  rfl

/-- **After any calls the editor shows what is on record**, by induction on the calls. -/
theorem agrees_of_calls (calls : List Call) :
    (recorded calls).Agrees (lastSource calls) (displayed calls) := by
  induction calls using List.reverseRecOn with
  | nil => exact agrees_empty (lastSource [])
  | append_singleton calls call ih =>
      have source : lastSource (calls ++ [call]) =
          fun path => (call.source? path).getD (lastSource calls path) :=
        funext (lastSource_concat calls call)
      rw [displayed_concat, source, recorded, Row.after_concat]
      exact ih.perform call

/-- What the editor shows after some calls. -/
structure Faithful (calls : List Call) : Prop where
  /-- For a file it shows what was last published for it, under the source that it was sent with,
  and nothing if there is no record. -/
  shown : ∀ path uri, Uri.ofPath? path = some uri → displayed calls uri =
    (((recorded calls).last? path).getD []).map fun d => d.sent (lastSource calls path)
  /-- For all else it shows nothing. -/
  elsewhere : ∀ uri, (∀ path, Uri.ofPath? path ≠ some uri) → displayed calls uri = []
  /-- What is sent next is empty for an excluded path and has no hidden name. -/
  sends : ∀ path diagnostics rules,
    ∀ publication ∈ ((recorded calls).perform (.send path diagnostics rules)).2,
      (rules.excludes path = true → publication.diagnostics = []) ∧
        ∀ sent ∈ publication.diagnostics, rules.hides sent.code = false
  /-- A reset leaves nothing to be seen. -/
  reset : displayed (calls ++ [.reset]) = .blank

/-- **The record is what the editor shows**, whatever the publisher is asked for. -/
theorem faithful_of_calls (calls : List Call) : Faithful calls where
  shown := (agrees_of_calls calls).shown
  elsewhere := (agrees_of_calls calls).elsewhere
  sends path diagnostics rules publication made := by
    rw [(mem_perform_send made).2]
    constructor
    · intro excluded
      rw [PublishRules.kept_of_excludes excluded, List.map_nil]
    · intro sent member
      obtain ⟨d, kept, rfl⟩ := List.mem_map.1 member
      rw [PublishRules.kept] at kept
      split at kept
      · exact absurd kept List.not_mem_nil
      · exact (Bool.not_eq_true' _).mp (List.mem_filter.1 kept).2
  reset := by
    rw [displayed_concat]
    exact (agrees_of_calls calls).takeAll_clears

end Publisher

end SvServer
