import SvServer.Proofs.Documents
import SvServer.Proofs.Engine.Representation
import SvServer.Proofs.Server.Runs

/-!
# Snapshots of documents

A pass takes the documents as they are when it begins, and the client goes on writing while it runs.
What it computed is published if the revision that it saw of a file is the revision that the file has
by then. This module says what equal revisions are worth. For texts they are conclusive: no two writes
of a store share a revision. For diagnostics they are not, since those of a file come from all units
that read it, also from units that an earlier pass compiled. Those note the revisions that they were
compiled from, and their notes settle whether the diagnostics are those of the text.
-/

namespace SvServer

namespace Documents

/-! ## Edits -/

/-- What a client does to a document. -/
inductive Edit where
  | opens (path : Path) (text : String) (version : Int)
  | updates (path : Path) (text : String) (version : Int)
  | closes (path : Path)

def Edit.path : Edit → Path
  | .opens path _ _ | .updates path _ _ | .closes path => path

/-- The text that an edit writes; none when it closes the document. -/
def Edit.text? : Edit → Option String
  | .opens _ text _ | .updates _ text _ => some text
  | .closes _ => none

/-- The documents after an edit. -/
def perform (documents : Documents) : Edit → Documents
  | .opens path text version => documents.openDocument path text version
  | .updates path text version => documents.update path text version
  | .closes path => documents.close path

/-- The documents after several edits. -/
def afterEdits (documents : Documents) (edits : List Edit) : Documents :=
  edits.foldl perform documents

/-- The revisions that edits are given, in their order. -/
def handedOut (documents : Documents) : List Edit → List Nat
  | [] => []
  | edit :: rest =>
    let after := documents.perform edit
    if edit.text?.isSome then after.lastRevision :: after.handedOut rest
    else after.handedOut rest

/-- The revision and the text of an open document. -/
def stamped? (documents : Documents) (path : Path) : Option (Nat × String) :=
  (documents.get? path).map fun document => (document.revision, document.text)

section Stamped

variable (documents : Documents)

theorem revision?_eq (path : Path) :
    documents.revision? path = (documents.stamped? path).map Prod.fst := by
  rw [revision?, stamped?, Option.map_map]
  rfl

theorem text?_eq (path : Path) :
    documents.text? path = (documents.stamped? path).map Prod.snd := by
  rw [text?, stamped?, Option.map_map]
  rfl

theorem stamped?_congr {a b : Path} (same : (a == b) = true) :
    documents.stamped? a = documents.stamped? b := by
  rw [stamped?, stamped?, get?, get?, PathMap.getElem?_congr _ same]

theorem stamped?_eq_some {path : Path} {revision : Nat}
    (held : documents.revision? path = some revision) :
    ∃ text, documents.stamped? path = some (revision, text) ∧
      documents.text? path = some text := by
  rw [revision?_eq, Option.map_eq_some_iff] at held
  obtain ⟨⟨_, text⟩, stamped, rfl⟩ := held
  exact ⟨text, stamped, by rw [text?_eq, stamped]; rfl⟩

/-- A write takes one more revision. -/
theorem lastRevision_perform (edit : Edit) : (documents.perform edit).lastRevision =
    if edit.text?.isSome then documents.lastRevision + 1 else documents.lastRevision := by
  cases edit with
  | opens => rfl
  | updates => rw [perform, update]; split <;> rfl
  | closes => rw [perform, close]; split <;> rfl

/-- **What an edit does**: its own document has the text that was written, under the new revision, or
is closed. The others stay as they were. -/
theorem stamped?_perform (edit : Edit) (path : Path) : (documents.perform edit).stamped? path =
    if edit.path == path then edit.text?.map ((documents.lastRevision + 1, ·))
    else documents.stamped? path := by
  have put : ∀ (spelled : Path) (document : Document),
      ((documents.table.put spelled document)[path]?).map (fun d => (d.revision, d.text)) =
        if spelled == path then some (document.revision, document.text)
        else documents.stamped? path := by
    intro spelled document
    rw [PathMap.getElem?_put, apply_ite (Option.map _)]
    rfl
  cases edit with
  | opens spelled text version => exact put ..
  | updates spelled text version =>
      rw [perform, update]
      split <;> exact put ..
  | closes spelled =>
      rw [perform, close]
      split
      · rw [stamped?, get?, PathMap.getElem?_erase, apply_ite (Option.map _)]
        rfl
      · rename_i closed
        have nothing : documents.stamped? spelled = none := by
          rw [stamped?, get?, Std.ExtTreeMap.getElem?_eq_none_of_contains_eq_false
            ((Bool.not_eq_true _).mp closed)]
          rfl
        split
        · rename_i same
          rw [← documents.stamped?_congr same]
          exact nothing
        · rfl

end Stamped

/-! ## What revisions tell about texts -/

/-- Every revision was handed out, and to one document only. -/
structure Numbered (documents : Documents) : Prop where
  bounded : ∀ path revision text, documents.stamped? path = some (revision, text) →
    revision ≤ documents.lastRevision
  single : ∀ a b revision text text', documents.stamped? a = some (revision, text) →
    documents.stamped? b = some (revision, text') → (a == b) = true

theorem numbered_empty : Numbered empty where
  bounded _ _ _ held := by simp [stamped?, get?, empty] at held
  single _ _ _ _ _ held := by simp [stamped?, get?, empty] at held

theorem Numbered.perform {documents : Documents} (h : documents.Numbered) (edit : Edit) :
    (documents.perform edit).Numbered := by
  have last := documents.lastRevision_perform edit
  -- A document is the one that was written, under the new revision, or has an older one.
  have cases_ : ∀ path revision text,
      (documents.perform edit).stamped? path = some (revision, text) →
      (edit.path == path) = true ∧ revision = documents.lastRevision + 1 ∧
          revision = (documents.perform edit).lastRevision ∨
        documents.stamped? path = some (revision, text) ∧ revision ≤ documents.lastRevision := by
    intro path revision text held
    rw [stamped?_perform] at held
    split at held
    · rename_i same
      obtain ⟨written, writes, stamp⟩ := Option.map_eq_some_iff.1 held
      rw [writes, Option.isSome_some, if_pos rfl] at last
      obtain ⟨rfl, -⟩ := Prod.mk.inj stamp
      exact .inl ⟨same, rfl, last.symm⟩
    · exact .inr ⟨held, h.bounded _ _ _ held⟩
  constructor
  · intro path revision text held
    rcases cases_ path revision text held with ⟨-, -, newest⟩ | ⟨-, older⟩
    · omega
    · split at last <;> omega
  · intro a b revision text text' heldA heldB
    rcases cases_ a _ _ heldA with ⟨sameA, newA, -⟩ | ⟨beforeA, olderA⟩ <;>
      rcases cases_ b _ _ heldB with ⟨sameB, newB, -⟩ | ⟨beforeB, olderB⟩
    · exact BEq.trans (BEq.symm sameA) sameB
    · omega
    · omega
    · exact h.single a b _ _ _ beforeA beforeB

/-- Documents that came from others by edits: those that have an old revision still have it with the
text that it had. -/
structure Since (before after : Documents) : Prop where
  lastRevision : before.lastRevision ≤ after.lastRevision
  untouched : ∀ path revision text, after.stamped? path = some (revision, text) →
    revision ≤ before.lastRevision → before.stamped? path = some (revision, text)

theorem Since.refl (documents : Documents) : documents.Since documents :=
  ⟨Nat.le_refl _, fun _ _ _ held _ => held⟩

theorem Since.trans {first second third : Documents} (h : first.Since second)
    (h' : second.Since third) : first.Since third where
  lastRevision := h.lastRevision.trans h'.lastRevision
  untouched path revision text held old := h.untouched path revision text
    (h'.untouched path revision text held (old.trans h.lastRevision)) old

theorem Since.perform {before after : Documents} (h : before.Since after) (edit : Edit) :
    before.Since (after.perform edit) where
  lastRevision := by
    have last := after.lastRevision_perform edit
    have start := h.lastRevision
    split at last <;> omega
  untouched path revision text held old := by
    rw [stamped?_perform] at held
    split at held
    · obtain ⟨written, -, stamp⟩ := Option.map_eq_some_iff.1 held
      obtain ⟨rfl, -⟩ := Prod.mk.inj stamp
      have start := h.lastRevision
      omega
    · exact h.untouched path revision text held old

theorem since_afterEdits (documents : Documents) (edits : List Edit) :
    documents.Since (documents.afterEdits edits) :=
  List.foldlRecOn (motive := documents.Since) edits _ (.refl documents)
    fun _ h edit _ => h.perform edit

theorem Numbered.afterEdits {documents : Documents} (h : documents.Numbered) (edits : List Edit) :
    (documents.afterEdits edits).Numbered :=
  List.foldlRecOn (motive := Numbered) edits _ h fun _ h edit _ => h.perform edit

/-- **Equal revisions mean equal texts**, of one document. -/
theorem text?_eq_of_revision? {before after : Documents} (numbered : before.Numbered)
    (since : before.Since after) {a b : Path} {revision : Nat}
    (earlier : before.revision? a = some revision) (later : after.revision? b = some revision) :
    (a == b) = true ∧ before.text? a = after.text? b := by
  obtain ⟨text, stampedA, textA⟩ := before.stamped?_eq_some earlier
  obtain ⟨text', stampedB, textB⟩ := after.stamped?_eq_some later
  have kept := since.untouched b revision text' stampedB (numbered.bounded _ _ _ stampedA)
  have same := numbered.single a b _ _ _ stampedA kept
  rw [before.stamped?_congr same, kept] at stampedA
  refine ⟨same, ?_⟩
  rw [textA, textB, (Prod.mk.inj (Option.some.inj stampedA)).2]

theorem lastRevision_lt_of_mem {documents : Documents} {edits : List Edit} {revision : Nat}
    (given : revision ∈ documents.handedOut edits) : documents.lastRevision < revision := by
  induction edits generalizing documents with
  | nil => cases given
  | cons edit rest ih =>
      have last := documents.lastRevision_perform edit
      rw [handedOut] at given
      split at given
      · rename_i writes
        rw [if_pos writes] at last
        rcases List.mem_cons.1 given with rfl | later
        · omega
        · have := ih later
          omega
      · rename_i closes
        rw [if_neg closes] at last
        exact last ▸ ih given

/-- **Revisions are handed out in increasing order.** -/
theorem pairwise_handedOut (documents : Documents) (edits : List Edit) :
    (documents.handedOut edits).Pairwise (· < ·) := by
  induction edits generalizing documents with
  | nil => exact .nil
  | cons edit rest ih =>
      rw [handedOut]
      split
      · exact .cons (fun _ later => lastRevision_lt_of_mem later) (ih _)
      · exact ih _

end Documents

/-! ## What units note -/

/-- Every file that was read is noted with the revision that it had. -/
def Unit.Reads.Notes (revision : Path → Option Nat) (reads : Unit.Reads) : Prop :=
  ∀ path, reads.files.contains path = true → reads.revisions[path]? = some (revision path)

theorem Unit.Reads.Notes.add {revision : Path → Option Nat} {reads : Unit.Reads}
    (congr : ∀ a b : Path, (a == b) = true → revision a = revision b)
    (h : reads.Notes revision) (target : Path) :
    (reads.add target (revision target)).Notes revision := by
  intro path read
  rw [Reads.add, PathSet.contains_insert, Bool.or_eq_true] at read
  rw [Reads.add, PathMap.getElem?_put]
  split
  · rename_i same
    rw [congr target path same]
  · rename_i other
    exact h path (read.resolve_left other)

/-- **A unit notes the revisions of the files that it read.** -/
theorem revisions_compileUnit {settings : Unit.Settings}
    (congr : ∀ a b : Path, (a == b) = true →
      settings.sources.revision a = settings.sources.revision b)
    {root path : Path} (read : (compileUnit settings root).filesRead.contains path = true) :
    (compileUnit settings root).revisions[path]? = some (settings.sources.revision path) := by
  rw [compileUnit] at read ⊢
  cases text : settings.sources.text root with
  | none =>
      rw [text] at read
      exact absurd read PathSet.not_contains_empty
  | some text' =>
      rw [text] at read
      -- Nothing is read at first; the root is added, and then what is included.
      have nothing : (Unit.State.initial root settings.macros).reads.Notes
          settings.sources.revision := fun path read => absurd read PathSet.not_contains_empty
      have begun : ((Unit.State.initial root settings.macros).addFile root
          (settings.sources.revision root)).reads.Notes settings.sources.revision :=
        nothing.add congr root
      exact Unit.compileFile_related settings
        (fun before after => before.Notes settings.sources.revision →
          after.Notes settings.sources.revision)
        (fun _ h => h) (fun _ _ _ first second h => second (first h))
        (fun _ _ _ target _ _ h => h.add congr target) _ _ _ _ begun path read

/-! ## Sessions -/

/-- The sources show documents as they are: their revisions, and their texts in place of what is on
disk. -/
structure Sources.Shows (sources : Sources) (documents : Documents) : Prop where
  revision : ∀ path, sources.revision path = documents.revision? path
  text : ∀ path text, documents.text? path = some text → sources.text path = some text

theorem Server.shows_sources (server : Server) (disk : Disk) :
    (server.sources disk).Shows server.documents where
  revision := server.revision_sources disk
  text path text held := by
    have shown : (server.sources disk).text path =
        (server.documents.text? path).or (disk.text? path) := by
      rw [sources]
      cases server.project <;> rfl
    rw [shown, held, Option.some_or]

/-- The documents, and what the engine made of them. -/
structure Session where
  documents : Documents
  engine : Engine

namespace Session

/-- A session in which nothing has happened. -/
def start : Session := ⟨.empty, .empty⟩

inductive Step where
  | edit (edit : Documents.Edit)
  /-- A pass runs. The rest of the server is as it may be by then. -/
  | pass (around : Server) (disk : Disk) (scope : PassScope)
  /-- With another project the engine starts anew. -/
  | restart

/-- The server with the documents and the engine of the session. -/
def within (session : Session) (around : Server) : Server :=
  { around with documents := session.documents, engine := session.engine }

def perform (session : Session) : Step → Session
  | .edit edit => { session with documents := session.documents.perform edit }
  | .pass around disk scope =>
    match (session.within around).setup? disk scope with
    | some (taken, input) => { session with engine := (taken.compute input).1.engine }
    | none => session
  | .restart => { session with engine := .empty }

def after (steps : List Step) : Session := steps.foldl perform start

/-- The edits among the steps. -/
def edits (steps : List Step) : List Documents.Edit :=
  steps.filterMap fun
    | .edit edit => some edit
    | _ => none

/-- A pass that ran in a session, with what it took as its input. -/
structure Passed (steps : List Step) where
  before : List Step
  around : Server
  disk : Disk
  scope : PassScope
  rest : List Step
  split : steps = before ++ .pass around disk scope :: rest
  taken : Server
  input : PassSetup
  began : ((after before).within around).setup? disk scope = some (taken, input)

theorem after_append_singleton (steps : List Step) (step : Step) :
    after (steps ++ [step]) = (after steps).perform step := by
  rw [after, List.foldl_append]
  rfl

/-- Only edits change documents. -/
theorem documents_after (steps : List Step) :
    (after steps).documents = Documents.empty.afterEdits (edits steps) := by
  induction steps using List.reverseRecOn with
  | nil => rfl
  | append_singleton steps step ih =>
      rw [after_append_singleton, edits, List.filterMap_append, Documents.afterEdits,
        List.foldl_append]
      cases step with
      | edit edit => exact congrArg (Documents.perform · edit) ih
      | restart => exact ih
      | pass around disk scope =>
          rw [perform]
          split <;> exact ih

theorem numbered_after (steps : List Step) : (after steps).documents.Numbered := by
  rw [documents_after]
  exact Documents.numbered_empty.afterEdits _

theorem since_after (before rest : List Step) :
    (after before).documents.Since (after (before ++ rest)).documents := by
  rw [documents_after, documents_after, edits, edits, List.filterMap_append, Documents.afterEdits,
    Documents.afterEdits, List.foldl_append]
  exact Documents.since_afterEdits _ _

/-- What passes and restarts keep holds of the engine of a session. -/
theorem invariant_after (holds : Engine → Prop) (nothing : holds .empty)
    (run : ∀ engine input, holds engine → holds (engine.run input).1) (steps : List Step) :
    holds (after steps).engine := by
  refine List.foldlRecOn (motive := fun session : Session => holds session.engine) steps _ nothing
    fun session h step _ => ?_
  cases step with
  | edit => exact h
  | restart => exact nothing
  | pass around disk scope =>
      rw [perform]
      split
      · rename_i taken input began
        obtain ⟨-, engine, -, -⟩ := Server.setup?_eq_some began
        have ran := run session.engine input h
        rw [show (session.within around).engine = session.engine from rfl] at engine
        rwa [← engine] at ran
      · exact h

theorem consistent_after (steps : List Step) : (after steps).engine.Consistent :=
  (invariant_after (fun engine => engine.Consistent ∧ engine.Charted)
    ⟨Engine.consistent_empty, Engine.charted_empty⟩
    (fun _ input h => ⟨h.1.run h.2 input, h.2.run input⟩) steps).1

namespace Passed

variable {steps : List Step} (pass : Passed steps)

/-- What the pass made of the engine. -/
def engine : Engine := (pass.taken.compute pass.input).1.engine

/-- What the pass computed for the client. -/
def reports : List FileReport := (pass.taken.compute pass.input).2

/-- The roots that the pass compiled. -/
def compiled : PathSet := (pass.taken.engine.run pass.input).2.compiled

/-- A root keeps the unit that it had before the pass. -/
structure Keeps (root : Path) (unit : UnitReport) : Prop where
  isRoot : pass.engine.roots.contains root = true
  spared : pass.compiled.contains root = false
  held : (after pass.before).engine.unit? root = some unit

/-- The pass is one of any longer session. -/
def extend {longer more : List Step} (split : longer = steps ++ more) : Passed longer :=
  { pass with
    rest := pass.rest ++ more
    split := by rw [split, ← List.cons_append, ← List.append_assoc, ← pass.split] }

theorem engine_taken : pass.taken.engine = (after pass.before).engine :=
  (Server.setup?_eq_some pass.began).2.1

theorem engine_eq : pass.engine = ((after pass.before).engine.run pass.input).1 := by
  rw [← pass.engine_taken]
  rfl

theorem compiled_eq : pass.compiled = ((after pass.before).engine.run pass.input).2.compiled := by
  rw [← pass.engine_taken]
  rfl

/-- **A pass sees the documents as they are when it begins.** -/
theorem shows : pass.input.sources.Shows (after pass.before).documents := by
  obtain ⟨stage, -, -, sources⟩ := Server.setup?_eq_some pass.began
  have documents : pass.taken.documents = (after pass.before).documents :=
    Server.documents_of_stage stage
  rw [sources, ← documents]
  exact pass.taken.shows_sources pass.disk

theorem since : (after pass.before).documents.Since (after steps).documents := by
  have later := since_after pass.before (.pass pass.around pass.disk pass.scope :: pass.rest)
  rwa [← pass.split] at later

/-- The session as far as the end of the pass. -/
def upTo : List Step := pass.before ++ [.pass pass.around pass.disk pass.scope]

theorem split_upTo : steps = pass.upTo ++ pass.rest := by
  rw [upTo, List.append_assoc, List.singleton_append, ← pass.split]

theorem after_upTo : after pass.upTo = ⟨(after pass.before).documents, pass.engine⟩ := by
  rw [upTo, after_append_singleton, perform, pass.began]
  rfl

theorem consistent : pass.engine.Consistent := by
  have ran := consistent_after pass.upTo
  rwa [after_upTo] at ran

/-- The units of a pass note the revisions that it saw. -/
theorem notes {root path : Path}
    (read : (compileUnit (Engine.settings pass.input) root).filesRead.contains path = true) :
    (compileUnit (Engine.settings pass.input) root).revisions[path]? =
      some ((after pass.before).documents.revision? path) := by
  rw [← pass.shows.revision]
  refine revisions_compileUnit (fun a b same => ?_) read
  rw [Engine.settings, pass.shows.revision, pass.shows.revision, Documents.revision?_eq,
    Documents.revision?_eq, Documents.stamped?_congr _ same]

end Passed

/-- **Every unit was compiled by a pass** of the session. -/
theorem compiled_of_held {steps : List Step} {root : Path} {unit : UnitReport}
    (held : (after steps).engine.unit? root = some unit) :
    ∃ pass : Passed steps, ∃ spelled,
      compileUnit (Engine.settings pass.input) spelled = unit := by
  induction steps using List.reverseRecOn with
  | nil => simp [after, start, Engine.empty, Engine.unit?] at held
  | append_singleton steps step ih =>
      have earlier (kept : (after steps).engine.unit? root = some unit) :
          ∃ pass : Passed (steps ++ [step]), ∃ spelled,
            compileUnit (Engine.settings pass.input) spelled = unit := by
        obtain ⟨pass, spelled, compiled⟩ := ih kept
        exact ⟨pass.extend rfl, spelled, compiled⟩
      rw [after_append_singleton] at held
      cases step with
      | edit => exact earlier held
      | restart => simp [perform, Engine.empty, Engine.unit?] at held
      | pass around disk scope =>
          cases began : ((after steps).within around).setup? disk scope with
          | none =>
              rw [perform, began] at held
              exact earlier held
          | some setup =>
              obtain ⟨taken, input⟩ := setup
              let pass : Passed (steps ++ [.pass around disk scope]) :=
                ⟨steps, around, disk, scope, [], rfl, taken, input, began⟩
              rw [perform, began] at held
              have ran : ((after steps).engine.run input).1.unit? root = some unit := by
                rw [← pass.engine_eq]
                exact held
              rcases Engine.unit?_run_cases ran with kept | ⟨spelled, compiled⟩
              · exact earlier kept
              · exact ⟨pass, spelled, compiled⟩

/-- A unit that noted the revision which a file has later on was compiled from the text that the file
has then. -/
theorem seen_of_noted {steps : List Step} {root path : Path} {unit : UnitReport}
    (held : (after steps).engine.unit? root = some unit)
    (read : unit.filesRead.contains path = true) {later : Documents}
    (since : (after steps).documents.Since later)
    (noted : unit.revisions[path]? = some (later.revision? path)) {text : String}
    (current : later.text? path = some text) :
    ∃ pass : Passed steps, ∃ spelled, compileUnit (Engine.settings pass.input) spelled = unit ∧
      pass.input.sources.text path = some text := by
  obtain ⟨pass, spelled, compiled⟩ := compiled_of_held held
  refine ⟨pass, spelled, compiled, ?_⟩
  rw [← compiled] at read noted
  have same : (after pass.before).documents.revision? path = later.revision? path :=
    Option.some.inj ((pass.notes read).symm.trans noted)
  obtain ⟨⟨revision, _⟩, stamped, -⟩ := Option.map_eq_some_iff.1 (later.text?_eq path ▸ current)
  have latest : later.revision? path = some revision := by
    rw [Documents.revision?_eq, stamped]
    rfl
  have texts := Documents.text?_eq_of_revision? (numbered_after pass.before)
    (pass.since.trans since) (same.trans latest) latest
  exact pass.shows.text path text (texts.2.trans current)

namespace Passed

variable {steps : List Step} (pass : Passed steps)

/-- The units of the pass are held when it ends. -/
theorem held_upTo {unit : UnitReport} (listed : unit ∈ pass.engine.rootUnits) :
    (after pass.upTo).engine.unit? unit.root = some unit := by
  rw [pass.after_upTo]
  exact (pass.consistent.units.unit?_root listed).2

/-- A unit of the pass that read a file has a note of its own among the revisions of the file. -/
theorem noted_of_revisionsOf {path : Path} {unit : UnitReport} {revision : Option Nat}
    (listed : unit ∈ pass.engine.rootUnits) (read : unit.filesRead.contains path = true)
    (all : ∀ noted ∈ pass.engine.revisionsOf path, noted = revision) :
    unit.revisions[path]? = some revision := by
  obtain ⟨earlier, spelled, compiled⟩ := compiled_of_held (pass.held_upTo listed)
  have noted := earlier.notes (compiled ▸ read)
  rw [compiled] at noted
  rw [pass.consistent.answersFromRoots.revisions] at all
  rw [noted, all _ (List.mem_filterMap.2 ⟨unit, List.mem_filter.2 ⟨listed, read⟩, noted⟩)]

/-- **The revisions behind a report** are all the one that the pass saw, if and only if the roots that
the pass spared had noted it already. -/
theorem revisionsOf_eq_iff {path : Path} :
    (∀ noted ∈ pass.engine.revisionsOf path, noted = pass.input.sources.revision path) ↔
      ∀ root unit, pass.Keeps root unit → unit.filesRead.contains path = true →
        unit.revisions[path]? = some (pass.input.sources.revision path) := by
  constructor
  · intro all root unit keeps read
    have spared := keeps.spared
    have isRoot := keeps.isRoot
    rw [compiled_eq] at spared
    rw [engine_eq] at isRoot
    have still : pass.engine.unit? root = some unit := by
      rw [engine_eq, Engine.unit?_of_not_compiled isRoot spared, keeps.held]
    exact pass.noted_of_revisionsOf (Engine.mem_rootUnits keeps.isRoot still) read all
  · intro keeps noted listed
    rw [pass.consistent.answersFromRoots.revisions] at listed
    obtain ⟨unit, reading, here⟩ := List.mem_filterMap.1 listed
    obtain ⟨ofRoot, read⟩ := List.mem_filter.1 reading
    obtain ⟨isRoot, held⟩ := pass.consistent.units.unit?_root ofRoot
    -- The unit is one of this pass, or one that it left as it was.
    cases compiled : pass.compiled.contains unit.root with
    | true =>
        rw [compiled_eq] at compiled
        obtain ⟨spelled, -, fresh⟩ := Engine.unit?_of_compiled compiled
        rw [← engine_eq, held] at fresh
        rw [Option.some.inj fresh] at read here
        rw [pass.notes read, ← pass.shows.revision] at here
        exact (Option.some.inj here).symm
    | false =>
        have before : (after pass.before).engine.unit? unit.root = some unit := by
          rw [engine_eq] at held isRoot
          rw [compiled_eq] at compiled
          rw [← Engine.unit?_of_not_compiled isRoot compiled, held]
        have kept := keeps unit.root unit ⟨isRoot, compiled, before⟩ read
        exact Option.some.inj (here.symm.trans kept)

/-- The roots that read a file are compiled by a pass that starts from it. -/
theorem not_keeps_of_dirty {path root : Path} {unit : UnitReport}
    (dirty : pass.input.dirty.contains path = true)
    (read : unit.filesRead.contains path = true) : ¬pass.Keeps root unit := by
  rintro ⟨isRoot, spared, held⟩
  have index := (consistent_after pass.before).index
  have reads : ((after pass.before).engine.index.filesOf root).contains path = true := by
    rw [index.contains_filesOf, held, Option.any_some, read]
  rw [engine_eq] at isRoot
  rw [compiled_eq, Engine.compiled_of_dirty index.readers isRoot dirty (.inr reads)] at spared
  exact absurd spared (by decide)

end Passed

/-! ## What a revision is worth -/

/-- All units that read a file were compiled by passes that saw this text of it. -/
def ComputedFrom (steps : List Step) (engine : Engine) (path : Path) (text : String) : Prop :=
  ∀ unit ∈ engine.rootUnits, unit.filesRead.contains path = true →
    ∃ pass : Passed steps, ∃ spelled, compileUnit (Engine.settings pass.input) spelled = unit ∧
      pass.input.sources.text path = some text

/-- What the revisions of a session tell. -/
structure RevisionsTell (steps : List Step) : Prop where
  /-- Every write has a revision of its own. -/
  increasing : (Documents.empty.handedOut (edits steps)).Pairwise (· < ·)
  /-- Documents that have the same revision at two points have the same text. -/
  earlier : ∀ before rest, steps = before ++ rest → ∀ a b revision,
    (after before).documents.revision? a = some revision →
    (after steps).documents.revision? b = some revision →
    (a == b) = true ∧ (after before).documents.text? a = (after steps).documents.text? b
  /-- So does what a pass saw. -/
  snapshot : ∀ (pass : Passed steps) a b revision,
    pass.input.sources.revision a = some revision →
    (after steps).documents.revision? b = some revision →
    (a == b) = true ∧ pass.input.sources.text a = (after steps).documents.text? b
  /-- A unit that noted the present revision of a file was compiled from its present text. -/
  unit : ∀ root unit path text, (after steps).engine.unit? root = some unit →
    unit.filesRead.contains path = true →
    unit.revisions[path]? = some ((after steps).documents.revision? path) →
    (after steps).documents.text? path = some text →
    ∃ pass : Passed steps, ∃ spelled, compileUnit (Engine.settings pass.input) spelled = unit ∧
      pass.input.sources.text path = some text
  /-- A report with the present revision comes from units that noted this revision if and only if the
  units that the pass left alone had noted it. -/
  report : ∀ (pass : Passed steps), ∀ file ∈ pass.reports,
    (after steps).documents.revision? file.path = file.revision →
    ((∀ noted ∈ pass.engine.revisionsOf file.path, noted = file.revision) ↔
      ∀ root unit, pass.Keeps root unit → unit.filesRead.contains file.path = true →
        unit.revisions[file.path]? = some file.revision)
  /-- In that case all of them were compiled from the present text. -/
  computed : ∀ (pass : Passed steps), ∀ file ∈ pass.reports,
    (after steps).documents.revision? file.path = file.revision →
    (∀ noted ∈ pass.engine.revisionsOf file.path, noted = file.revision) →
    ∀ text, (after steps).documents.text? file.path = some text →
      ComputedFrom steps pass.engine file.path text
  /-- It is the case for a file that the pass started from. -/
  own : ∀ (pass : Passed steps), ∀ file ∈ pass.reports,
    pass.input.dirty.contains file.path = true →
    ∀ noted ∈ pass.engine.revisionsOf file.path, noted = file.revision

theorem Passed.revision_of_reports {steps : List Step} (pass : Passed steps) {file : FileReport}
    (reported : file ∈ pass.reports) : file.revision = pass.input.sources.revision file.path := by
  rw [reports, Server.reports_eq] at reported
  obtain ⟨path, -, rfl⟩ := List.mem_map.1 reported
  rfl

/-- **Revisions tell which text was seen**, in every session. -/
theorem revisions_tell (steps : List Step) : RevisionsTell steps where
  increasing := Documents.pairwise_handedOut _ _
  earlier before rest split a b revision first later := by
    have since := since_after before rest
    rw [← split] at since
    exact Documents.text?_eq_of_revision? (numbered_after before) since first later
  snapshot pass a b revision seen later := by
    rw [pass.shows.revision] at seen
    have texts := Documents.text?_eq_of_revision? (numbered_after pass.before) pass.since seen later
    obtain ⟨text, -, held⟩ := Documents.stamped?_eq_some _ seen
    exact ⟨texts.1, by rw [pass.shows.text a text held, ← texts.2, held]⟩
  unit root unit path text held read noted current :=
    seen_of_noted held read (.refl _) noted current
  report pass file reported current := by
    rw [pass.revision_of_reports reported]
    exact pass.revisionsOf_eq_iff
  computed pass file reported current all text held unit listed read := by
    have since := since_after pass.upTo pass.rest
    rw [← pass.split_upTo] at since
    have noted := pass.noted_of_revisionsOf listed read all
    rw [← current] at noted
    obtain ⟨earlier, spelled, compiled, seen⟩ :=
      seen_of_noted (pass.held_upTo listed) read since noted held
    exact ⟨earlier.extend pass.split_upTo, spelled, compiled, seen⟩
  own pass file reported dirty := by
    rw [pass.revision_of_reports reported]
    exact pass.revisionsOf_eq_iff.2 fun root unit keeps read =>
      absurd keeps (pass.not_keeps_of_dirty dirty read)

/-! ## A report about an older text -/

def header : Path := .ofString "/p/h.svh"

/-- Two documents include a header. One is compiled before the header is emptied. -/
def emptiedHeader : List Step :=
  [.edit (.opens header "`BAR\n" 1),
    .edit (.opens (.ofString "/p/b.sv") "`include \"h.svh\"\n" 1),
    .pass (.start .initial "license.txt") default (.files {.ofString "/p/b.sv"}),
    .edit (.opens (.ofString "/p/a.sv") "`include \"h.svh\"\n" 1),
    .edit (.updates header "" 2)]

/-- The other document is compiled after that. -/
def secondReader : Passed (emptiedHeader ++
    [.pass (.start .initial "license.txt") default (.files {.ofString "/p/a.sv"})]) where
  before := emptiedHeader
  around := .start .initial "license.txt"
  disk := default
  scope := .files {.ofString "/p/a.sv"}
  rest := []
  split := rfl
  taken := (after emptiedHeader).within (.start .initial "license.txt")
  input := ((after emptiedHeader).within (.start .initial "license.txt")).passSetup default
    {.ofString "/p/a.sv"} false
  began := rfl

/-- **A report can have the present revision and come from an older text.** The header is empty, and
the report about it still has the directive that the other document was compiled with. -/
theorem older_text_in_report :
    (after emptiedHeader).documents.text? header = some "" ∧
      (after emptiedHeader).documents.revision? header = some 4 ∧
      ((secondReader.reports.filter (·.path == header)).map fun file =>
          (file.revision, file.diagnostics.map Diagnostic.message)) =
        [(some 4, ["unknown macro or compiler directive '`BAR'"])] ∧
      secondReader.engine.revisionsOf header = [some 4, some 1] := by
  decide +kernel

end Session

end SvServer
