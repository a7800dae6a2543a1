import SvServer.Proofs.Unit.Changes
import SvServer.Proofs.Unit.Edits
import SvServer.Proofs.Unit.Spans
import SvServer.Proofs.Unit.Stages

/-!
# Places that a unit compile points to

A range is made where a file is walked, and may be reported much later: a block that is left open is
reported while another file is open, or at the very end. Each is the place of a stretch of a file that
was read, and stays that. Here this is kept by every step of a compile, for all that was noted so far
and for all that is still open.
-/

namespace SvServer

open Hdl

/-- The range is that of a stretch of a file that was read. -/
structure IsPlace (sources : Sources) (files : PathSet) (path : Path) (range : Range) : Prop where
  listed : files.contains path = true
  ordered : range.start = range.stop ∨ range.start.Before range.stop
  ends : ∃ text start stop, sources.text path = some text ∧ Text.IsBoundary text.toList start ∧
    Text.IsBoundary text.toList stop ∧
    range = ⟨Text.position text.toList start, Text.position text.toList stop⟩

/-- A file more that is read leaves places where they are. -/
theorem IsPlace.mono {sources : Sources} {files files' : PathSet} {path : Path} {range : Range}
    (place : IsPlace sources files path range)
    (more : ∀ path, files.contains path = true → files'.contains path = true) :
    IsPlace sources files' path range :=
  { place with listed := more path place.listed }

namespace Unit

variable {sources : Sources} {file : SourceFile} {token : Token} {rest : List Token}
variable {state : State} {progress : Progress}

/-- A stretch of an open file is a place. -/
theorem isPlace_of_stretch (opens : state.Opens sources file) {start stop : Nat}
    (stretch : Text.IsStretch file.text start stop) :
    IsPlace sources state.result.filesRead file.path (file.range start stop) := by
  obtain ⟨text, readable, same⟩ := opens.readable
  have ordered := stretch.position
  refine ⟨opens.listed, ordered, text, start, stop, readable, ?_, ?_, ?_⟩
  · rw [← same]
    exact stretch.start
  · rw [← same]
    exact stretch.stop
  · rw [SourceFile.range, same]

/-- A token of an open file is at a place, and so is each token of a body that is used there. -/
theorem isPlace_of_placed (opens : state.Opens sources file) (placed : Placed file token) :
    IsPlace sources state.result.filesRead file.path (file.tokenRange token) := by
  obtain ⟨site, listed, start, stop⟩ := placed.site
  rw [SourceFile.tokenRange, start, stop]
  exact isPlace_of_stretch opens (isStretch_token listed)

/-! ## States -/

/-- All that was noted so far, and all that is open, is at places. -/
structure State.Located (sources : Sources) (state : State) : Prop where
  diagnostics : ∀ d ∈ state.result.diagnostics,
    IsPlace sources state.result.filesRead d.path d.range
  declarations : ∀ d ∈ state.result.declarations,
    IsPlace sources state.result.filesRead d.path d.range
  instantiations : ∀ i ∈ state.result.instantiations,
    IsPlace sources state.result.filesRead i.path i.range
  blocks : ∀ block ∈ state.blocks, IsPlace sources state.result.filesRead block.path block.range
  delimiters : ∀ opened ∈ state.delimiters,
    IsPlace sources state.result.filesRead opened.path opened.range

/-- What holds of all members of a list and of some more holds of all of them together. -/
theorem forall_mem_append {α : Type} {p : α → Prop} {xs ys : List α} (hx : ∀ x ∈ xs, p x)
    (hy : ∀ y ∈ ys, p y) : ∀ x ∈ xs ++ ys, p x :=
  fun x member => (List.mem_append.1 member).elim (hx x) (hy x)

namespace State.Located

theorem report (located : state.Located sources) {d : Diagnostic}
    (place : IsPlace sources state.result.filesRead d.path d.range) :
    (state.report d).Located sources :=
  { located with
    diagnostics := forall_mem_append located.diagnostics (List.forall_mem_singleton.2 place) }

theorem find (located : state.Located sources) {path : Path} {range : Range}
    (place : IsPlace sources state.result.filesRead path range) (finding : Finding) :
    (state.find path range finding).Located sources := located.report place

theorem find? (located : state.Located sources) {path : Path} {range : Range}
    (place : IsPlace sources state.result.filesRead path range) (finding : Option Finding) :
    (state.find? path range finding).Located sources := by
  cases finding with
  | none => exact located
  | some finding => exact located.find place finding

/-- Several findings of one file, one after the other. -/
theorem findAll {α : Type} (located : state.Located sources) {path : Path} {range : α → Range}
    {finding : α → Finding} {list : List α}
    (places : ∀ x ∈ list, IsPlace sources state.result.filesRead path (range x)) :
    (list.foldl (fun state x => state.find path (range x) (finding x)) state).Located sources := by
  induction list generalizing state with
  | nil => exact located
  | cons first rest ih =>
      obtain ⟨place, others⟩ := List.forall_mem_cons.1 places
      exact ih (located.find place (finding first)) others

theorem define (located : state.Located sources) (definitions : Definitions) :
    State.Located sources { state with definitions := definitions } := { located with }

theorem addMissing (located : state.Located sources) (name : String) :
    (state.addMissing name).Located sources := { located with }

end State.Located

/-! ## Structure checks -/

section Structure

variable (located : state.Located sources) (opens : state.Opens sources file)

include located opens

theorem located_openBlock (here : Placed file token) (ahead : ∀ next ∈ rest, Placed file next)
    (closers : List String) : (state.openBlock file token closers rest).Located sources := by
  have place := isPlace_of_placed opens here
  rcases state.openBlock_cases file token rest closers with
    same | ⟨kind, name, header, -, found, -, same⟩ <;> rw [same]
  · exact { located with blocks := List.forall_mem_cons.2 ⟨place, located.blocks⟩ }
  · have declared := isPlace_of_placed opens (ahead name (mem_of_declaredName? found).1)
    exact { located with
      blocks := List.forall_mem_cons.2 ⟨place, located.blocks⟩
      declarations :=
        forall_mem_append located.declarations (List.forall_mem_singleton.2 declared) }

theorem located_closeBlock (here : Placed file token) :
    (state.closeBlock file token).Located sources := by
  have place := isPlace_of_placed opens here
  rcases state.closeBlock_cases file token with
    same | ⟨skipped, closed, outer, split, same⟩ <;> rw [same]
  · exact located.find place _
  · have blocks := located.blocks
    rw [split] at blocks
    refine { located with
      diagnostics := forall_mem_append located.diagnostics fun d member => ?_
      blocks := fun block member =>
        blocks block (List.mem_append_right _ (List.mem_cons_of_mem _ member)) }
    obtain ⟨block, missing, rfl⟩ := List.mem_map.1 member
    exact blocks block (List.mem_append_left _ (List.mem_reverse.1 missing))

theorem located_openDelimiter (here : Placed file token) (delimiter : Delimiter) :
    (state.openDelimiter file token delimiter).Located sources := by
  have place := isPlace_of_placed opens here
  exact { located with delimiters := List.forall_mem_cons.2 ⟨place, located.delimiters⟩ }

theorem located_closeDelimiter (here : Placed file token) (delimiter : Delimiter) :
    (state.closeDelimiter file token delimiter).Located sources := by
  have place := isPlace_of_placed opens here
  rcases state.closeDelimiter_cases file token delimiter with
    same | ⟨innermost, outer, split, same⟩ | ⟨innermost, remaining, inside, same⟩ <;> rw [same]
  · exact located.find place _
  · have within : ∀ opened ∈ outer, opened ∈ state.delimiters := fun opened member =>
      split ▸ List.mem_cons_of_mem _ member
    exact { located with
      delimiters := fun opened member => located.delimiters opened (within opened member) }
  · have reported := located.find place (.mismatchedDelimiter innermost delimiter)
    exact { reported with
      delimiters := fun opened member => located.delimiters opened (inside.subset member) }

/-- **A check keeps places.** -/
theorem located_inspect (here : Placed file token) (ahead : ∀ next ∈ rest, Placed file next)
    (look : Lookback) : (state.inspect file token rest look).Located sources := by
  rcases state.inspect_cases file token rest look with
    same | ⟨-, same | ⟨closers, -, same⟩ | same⟩ | ⟨delimiter, same | same⟩ <;> rw [same]
  · exact located
  · exact located_closeBlock located opens here
  · exact located_openBlock located opens here ahead closers
  · have place := isPlace_of_placed opens here
    exact { located with
      instantiations :=
        forall_mem_append located.instantiations (List.forall_mem_singleton.2 place) }
  · exact located_openDelimiter located opens here delimiter
  · exact located_closeDelimiter located opens here delimiter

end Structure

/-! ## Directives -/

section Directives

variable (located : state.Located sources) (opens : state.Opens sources file)

include located opens

theorem located_define (here : token ∈ tokens file.text)
    (ahead : ∀ next ∈ rest, next ∈ tokens file.text) (settings : Settings) :
    (state.define settings file token rest).Located sources := by
  rcases state.define_cases settings file token rest with
    ⟨-, same⟩ | ⟨name, reported, definitions, found, rfl | rfl, same⟩ <;> rw [same]
  · exact located.find (isPlace_of_stretch opens (isStretch_token here)) _
  · exact located.define _
  · have place := isPlace_of_stretch opens (isStretch_token (ahead name (mem_of_operand? found).1))
    exact (located.report place).define _

/-- A directive away from a readable include keeps places. -/
theorem located_directive (here : token ∈ tokens file.text)
    (ahead : ∀ next ∈ rest, next ∈ tokens file.text) (settings : Settings) (stack : List Path)
    (compile? : Option (SourceFile → State → State))
    (elsewhere : token.text = "include" → includeName? file token rest = none) :
    (state.directive settings stack compile? file token rest).1.Located sources := by
  have place := isPlace_of_stretch opens (isStretch_token here)
  rw [State.directive]
  split
  case h_1 => exact located_define located opens here ahead settings
  case h_2 =>
    split
    · exact located.define _
    · exact located.find place _
  case h_3 => exact located.define _
  case h_4 included =>
    rw [elsewhere included]
    exact located.find place _
  case h_5 =>
    split
    · exact located
    · split
      · exact located
      · exact located.find place _

end Directives

/-! ## Walks -/

/-- Chains that are open in a file are at places of it. -/
def ChainsLocated (sources : Sources) (files : PathSet) (path : Path) (chains : List Chain) : Prop :=
  ∀ chain ∈ chains, IsPlace sources files path chain.range

/-- A walk through an open file, at places all over. -/
structure Progress.Located (sources : Sources) (file : SourceFile) (progress : Progress) : Prop where
  opens : progress.walk.state.Opens sources file
  state : progress.walk.state.Located sources
  chains : ChainsLocated sources progress.walk.state.result.filesRead file.path progress.chains

section Walks

variable (located : progress.Located sources file)

include located

/-- A branch is reported where its directive is. -/
theorem located_afterBranch (here : token ∈ tokens file.text) {step : List Chain × Option Finding}
    (ranges : ∀ range ∈ step.1.map Chain.range, range ∈ progress.chains.map Chain.range ∨
      range = file.tokenRange token) :
    (progress.afterBranch file token step).Located sources file := by
  have place := isPlace_of_stretch located.opens (isStretch_token here)
  have chains : ChainsLocated sources progress.walk.state.result.filesRead file.path step.1 := by
    intro chain member
    rcases ranges chain.range (List.mem_map_of_mem member) with listed | same
    · obtain ⟨before, listed, same⟩ := List.mem_map.1 listed
      rw [← same]
      exact located.chains before listed
    · rw [same]
      exact place
  have state := located.state.find? place step.2
  obtain ⟨after, finding⟩ := step
  cases finding with
  | none => exact ⟨located.opens, state, chains⟩
  | some finding => exact ⟨⟨located.opens.readable, located.opens.listed⟩, state, chains⟩

theorem located_conditional? (here : token ∈ tokens file.text) {done : Progress × Nat}
    (acted : progress.conditional? file token rest = some done) :
    done.1.Located sources file := by
  have opened (condition : Bool) : ∀ range ∈ (Chain.openChain progress.chains condition
      (file.tokenRange token)).map Chain.range, range ∈ progress.chains.map Chain.range ∨
      range = file.tokenRange token := fun _ member => (List.mem_cons.1 member).symm
  rw [Progress.conditional?] at acted
  dsimp only at acted
  split at acted
  · rw [← Option.some.inj acted]
    exact located_afterBranch located here (opened _)
  · rw [← Option.some.inj acted]
    exact located_afterBranch located here (opened _)
  · rw [← Option.some.inj acted]
    exact located_afterBranch located here fun _ member =>
      .inl (Chain.ranges_elsifBranch _ _ ▸ member)
  · rw [← Option.some.inj acted]
    exact located_afterBranch located here fun _ member =>
      .inl (Chain.ranges_elseBranch _ ▸ member)
  · rw [← Option.some.inj acted]
    exact located_afterBranch located here fun _ member =>
      .inl (List.mem_of_mem_tail (Chain.ranges_closeChain _ ▸ member))
  · cases acted

/-- **A step through a file keeps places**, away from uses and includes. -/
theorem located_step (here : token ∈ tokens file.text) (ahead : ∀ next ∈ rest, next ∈ tokens file.text)
    (settings : Settings) (stack : List Path) (compile? : Option (SourceFile → State → State))
    (unused : ¬(token.kind = .directive ∧
      (Chain.isActive progress.chains && progress.walk.state.isObjectLike token.text) = true))
    (elsewhere : includeSite? progress file token rest = none) :
    (progress.step settings stack compile? file token rest).1.Located sources file := by
  -- What was read stays the same, so it is enough to look at the state and the chains.
  have reads := Progress.reads_step settings stack compile? file token rest progress elsewhere
  have kept {walk : Walk} (located' : walk.state.Located sources)
      (reads : walk.state.reads = progress.walk.state.reads) :
      Progress.Located sources file { progress with walk := walk } := by
    have files : walk.state.result.filesRead = progress.walk.state.result.filesRead :=
      congrArg Reads.files reads
    refine ⟨⟨located.opens.readable, ?_⟩, located', ?_⟩
    · rw [files]
      exact located.opens.listed
    · rw [files]
      exact located.chains
  revert reads
  rw [Progress.step]
  dsimp only
  split
  case isTrue directive =>
    rw [if_neg fun used => unused ⟨directive, used⟩]
    split
    case h_1 done acted => exact fun _ => located_conditional? located here acted
    case h_2 =>
      split
      case isFalse => exact fun _ => located
      case isTrue active =>
        refine kept (located_directive located.state located.opens here ahead settings stack compile?
          fun included => ?_)
        rwa [includeSite?, if_pos ⟨directive, included, active⟩] at elsewhere
  case isFalse =>
    split
    case isFalse => exact fun _ => located
    case isTrue =>
      exact kept (located_inspect located.state located.opens (placed_of_mem here)
        (fun next member => placed_of_mem (ahead next member)) _)

end Walks

/-! ## Stages -/

/-- A file that is open, with all that is open in it, at places. -/
structure OpenFile.Located (sources : Sources) (state : State) (opened : OpenFile) : Prop where
  opens : state.Opens sources opened.file
  chains : ChainsLocated sources state.result.filesRead opened.file.path opened.chains
  ahead : ∀ token ∈ opened.ahead, token ∈ tokens opened.file.text
  bodies : ∀ body ∈ opened.bodies,
    Placed opened.file body.site ∧ ∀ token ∈ body.ahead, Placed opened.file token

/-- A stage at places all over. -/
structure Stage.Located (sources : Sources) (stage : Stage) : Prop where
  state : stage.state.Located sources
  files : ∀ opened ∈ stage.files, opened.Located sources stage.state

namespace OpenFile

variable {opened : OpenFile} {state' : State}

/-- Files that are read meanwhile leave an open file where it is. -/
theorem Located.mono (located : opened.Located sources state)
    (more : ∀ path, state.result.filesRead.contains path = true →
      state'.result.filesRead.contains path = true) : opened.Located sources state' :=
  { located with
    opens := ⟨located.opens.readable, more _ located.opens.listed⟩
    chains := fun chain member => (located.chains chain member).mono more }

theorem Located.of_reads (located : opened.Located sources state) (same : state'.reads = state.reads) :
    opened.Located sources state' := by
  have files : state'.result.filesRead = state.result.filesRead := congrArg Reads.files same
  exact located.mono fun path read => files ▸ read

theorem Located.use (located : opened.Located sources state) {site : Token}
    (placed : Placed opened.file site) (name : String) :
    (opened.use state site name).Located sources state := by
  rw [OpenFile.use]
  split
  · exact located
  · split
    · exact { located with
        bodies := List.forall_mem_cons.2
          ⟨⟨placed, fun token member => placed_of_mem_bodyTokens placed member⟩, located.bodies⟩ }
    · exact located

end OpenFile

theorem State.reads_inspect (state : State) (file : SourceFile) (token : Token) (rest : List Token)
    (look : Lookback) : (state.inspect file token rest look).reads = state.reads := by
  rw [← withReads_reads state, withReads_inspect, reads_withReads, reads_withReads]

/-- **A step in a body keeps places.** -/
theorem located_stepBody {opened : OpenFile} (located : opened.Located sources state)
    (noted : state.Located sources) {body : OpenBody} {others : List OpenBody}
    (within : opened.bodies = body :: others) :
    let after := opened.stepBody state body others
    after.1.Located sources after.2 ∧ after.2.Located sources ∧ after.2.reads = state.reads := by
  obtain ⟨⟨site, words⟩, outside⟩ := List.forall_mem_cons.1 (within ▸ located.bodies)
  rw [OpenFile.stepBody]
  split
  case h_1 => exact ⟨{ located with bodies := outside }, noted, rfl⟩
  case h_2 token rest ahead =>
    rw [ahead] at words
    obtain ⟨here, behind⟩ := List.forall_mem_cons.1 words
    have passed : OpenFile.Located sources state
        { opened with bodies := { body with ahead := rest } :: others } :=
      { located with bodies := List.forall_mem_cons.2 ⟨⟨site, behind⟩, outside⟩ }
    dsimp only
    split
    case isTrue =>
      have same := state.reads_inspect opened.file token rest opened.look
      have looked : OpenFile.Located sources state { opened with
          look := opened.look.push token
          bodies := { body with ahead := rest } :: others } := { passed with }
      exact ⟨looked.of_reads same, located_inspect noted located.opens here behind _, same⟩
    case isFalse =>
      split
      · exact ⟨passed.use site _, noted, rfl⟩
      · split
        · exact ⟨passed.of_reads rfl, noted.find (isPlace_of_placed located.opens site) _, rfl⟩
        · exact ⟨passed, noted, rfl⟩

theorem located_begin (noted : state.Located sources) (opens : state.Opens sources file) :
    (state.begin file).Located sources :=
  noted.findAll fun _ member => isPlace_of_stretch opens (isStretch_error member)

theorem located_close (located : progress.Located sources file) :
    (progress.close file).Located sources :=
  located.state.findAll fun chain member => located.chains chain (List.mem_reverse.1 member)

/-- A file that is opened counts as read, and leaves what was read before. -/
theorem contains_addFile (state : State) (path : Path) (revision : Option Nat) :
    (state.addFile path revision).result.filesRead.contains path = true ∧
      ∀ other, state.result.filesRead.contains other = true →
        (state.addFile path revision).result.filesRead.contains other = true := by
  refine ⟨?_, fun other read => ?_⟩
  · show (state.result.filesRead.insert path).contains path = true
    rw [PathSet.contains_insert, BEq.rfl, Bool.true_or]
  · show (state.result.filesRead.insert path).contains other = true
    rw [PathSet.contains_insert, read, Bool.or_true]

/-- **A file that can be read is opened at places.** -/
theorem located_opened {target : Path} {text : String} {revision : Option Nat}
    (noted : state.Located sources) (readable : sources.text target = some text) :
    let file : SourceFile := ⟨target, text.toList⟩
    let begun := (state.addFile target revision).begin file
    begun.Located sources ∧ (OpenFile.begin file).Located sources begun ∧
      ∀ opened, OpenFile.Located sources state opened → opened.Located sources begun := by
  intro file begun
  obtain ⟨listed, more⟩ := contains_addFile state target revision
  have added : (state.addFile target revision).Located sources := {
    diagnostics := fun d member => (noted.diagnostics d member).mono more
    declarations := fun d member => (noted.declarations d member).mono more
    instantiations := fun i member => (noted.instantiations i member).mono more
    blocks := fun block member => (noted.blocks block member).mono more
    delimiters := fun opened member => (noted.delimiters opened member).mono more }
  have opens : (state.addFile target revision).Opens sources file := ⟨⟨text, readable, rfl⟩, listed⟩
  have same := (state.addFile target revision).reads_begin file
  have fresh : (OpenFile.begin file).Located sources (state.addFile target revision) :=
    ⟨opens, fun _ member => (List.not_mem_nil member).elim, fun _ member => member,
      fun _ member => (List.not_mem_nil member).elim⟩
  exact ⟨located_begin added opens, fresh.of_reads same, fun opened located =>
    (located.mono more).of_reads same⟩

/-- **Following an include keeps places.** -/
theorem located_openInclude {settings : Settings} {opened : OpenFile} {outer : List OpenFile}
    (noted : state.Located settings.sources)
    (files : ∀ file ∈ opened :: outer, file.Located settings.sources state) {name : String}
    {range : Range}
    (place : IsPlace settings.sources state.result.filesRead opened.file.path range) :
    (Stage.openInclude settings opened outer state name range).Located settings.sources := by
  have passed (finding : Finding) : Stage.Located settings.sources
      ⟨opened :: outer, state.find opened.file.path range finding⟩ :=
    ⟨noted.find place finding, fun file member => (files file member).of_reads rfl⟩
  have missed (finding : Finding) : Stage.Located settings.sources
      ⟨opened :: outer, (state.addMissing name).find opened.file.path range finding⟩ :=
    ⟨(noted.addMissing name).find place finding, fun file member => (files file member).of_reads rfl⟩
  rw [Stage.openInclude]
  split
  · exact missed _
  · dsimp only
    split
    · exact passed _
    · split
      · exact passed _
      · split
        case h_1 => exact missed _
        case h_2 text readable =>
          obtain ⟨begun, fresh, others⟩ := located_opened noted readable
          exact ⟨begun, List.forall_mem_cons.2 ⟨fresh, fun file member =>
            others file (files file member)⟩⟩

/-- A step in the text of the innermost file keeps places. -/
theorem located_stepFile {settings : Settings} {opened : OpenFile} {outer : List OpenFile}
    (noted : state.Located settings.sources) (here : opened.Located settings.sources state)
    (around : ∀ file ∈ outer, file.Located settings.sources state) :
    (Stage.stepFile settings opened outer state).Located settings.sources := by
  have walking : (opened.progress state).Located settings.sources opened.file :=
    ⟨here.opens, noted, here.chains⟩
  rw [Stage.stepFile]
  split
  case h_1 =>
    exact ⟨located_close walking, fun file member =>
      (around file member).of_reads (Progress.reads_close _ _)⟩
  case h_2 token rest ahead =>
    obtain ⟨listed, behind⟩ := List.forall_mem_cons.1 (ahead ▸ here.ahead)
    have further (used : Nat) : ∀ next ∈ rest.drop used, next ∈ tokens opened.file.text :=
      fun next member => behind next (List.mem_of_mem_drop member)
    split
    case isTrue =>
      have passed : OpenFile.Located settings.sources state { opened with ahead := rest } :=
        { here with ahead := behind }
      exact ⟨noted, List.forall_mem_cons.2 ⟨passed.use (placed_of_mem listed) _, around⟩⟩
    case isFalse unused =>
      split
      case h_1 name range site =>
        have named : includeName? opened.file token rest = some (name, range) := by
          rw [includeSite?] at site
          split at site
          · exact site
          · cases site
        obtain ⟨start, stop, stretch, rfl⟩ := isStretch_includeName behind named
        refine located_openInclude noted (List.forall_mem_cons.2 ⟨?_, around⟩)
          (isPlace_of_stretch here.opens stretch)
        exact { here with ahead := further _ }
      case h_2 elsewhere =>
        have stepped := located_step walking listed behind settings [] none unused elsewhere
        have same := Progress.reads_step settings [] none opened.file token rest
          (opened.progress state) elsewhere
        have behindStep : OpenFile.Located settings.sources state { opened with
            ahead := rest.drop
              ((opened.progress state).step settings [] none opened.file token rest).2 } :=
          { here with ahead := further _ }
        exact ⟨stepped.state, List.forall_mem_cons.2
          ⟨{ behindStep.of_reads same with chains := stepped.chains },
            fun file member => (around file member).of_reads same⟩⟩

/-- **Every step keeps places.** -/
theorem located_next {settings : Settings} {stage : Stage}
    (located : stage.Located settings.sources) :
    (stage.next settings).Located settings.sources := by
  obtain ⟨files, state⟩ := stage
  obtain ⟨noted, files'⟩ := located
  cases files with
  | nil => exact ⟨noted, files'⟩
  | cons opened outer =>
      obtain ⟨here, around⟩ := List.forall_mem_cons.1 files'
      rw [Stage.next]
      dsimp only
      split
      case h_1 body others within =>
        obtain ⟨inside, noted', same⟩ := located_stepBody here noted within
        exact ⟨noted', List.forall_mem_cons.2 ⟨inside, fun file member =>
          (around file member).of_reads same⟩⟩
      case h_2 => exact located_stepFile noted here around

/-- A unit begins with nothing noted, and with the root open if it can be read. -/
theorem located_start (settings : Settings) (root : Path) :
    (Stage.start settings root).Located settings.sources := by
  have noted : (State.initial root settings.macros).Located settings.sources := by
    constructor <;> exact fun _ member => (List.not_mem_nil member).elim
  rw [Stage.start]
  split
  case h_1 => exact ⟨noted, fun _ member => (List.not_mem_nil member).elim⟩
  case h_2 text readable =>
    obtain ⟨begun, fresh, -⟩ := @located_opened _ _ _ _ (settings.sources.revision root) noted readable
    exact ⟨begun, List.forall_mem_singleton.2 fresh⟩

/-- **All stages of a compile are at places all over.** -/
theorem Stage.Reached.located {settings : Settings} {root : Path} {stage : Stage}
    (reached : Stage.Reached settings root stage) : stage.Located settings.sources :=
  reached.keeps _ (located_start settings root) fun _ _ => located_next

/-- What is left open at the end is reported where it was opened. -/
theorem located_finish (noted : state.Located sources) : state.finish.Located sources := by
  have blocks : ∀ d ∈ state.blocks.reverse.map fun block =>
      block.unterminated.located block.path block.range,
      IsPlace sources state.result.filesRead d.path d.range := by
    intro d member
    obtain ⟨block, pending, rfl⟩ := List.mem_map.1 member
    exact noted.blocks block (List.mem_reverse.1 pending)
  have delimiters : ∀ d ∈ state.delimiters.reverse.map fun opened =>
      (Finding.unclosedDelimiter opened.delimiter).located opened.path opened.range,
      IsPlace sources state.result.filesRead d.path d.range := by
    intro d member
    obtain ⟨opened, pending, rfl⟩ := List.mem_map.1 member
    exact noted.delimiters opened (List.mem_reverse.1 pending)
  exact { noted with
    diagnostics := forall_mem_append (forall_mem_append noted.diagnostics blocks) delimiters
    blocks := fun _ member => (List.not_mem_nil member).elim
    delimiters := fun _ member => (List.not_mem_nil member).elim }

end Unit

/-- **All that a unit reports is at places**: each diagnostic, declaration and instantiation is in a
file that was read, and its range goes from one boundary between characters of that file to one that
is not before it. -/
theorem isPlace_compileUnit (settings : Unit.Settings) (root : Path) :
    let report := compileUnit settings root
    (∀ d ∈ report.diagnostics, IsPlace settings.sources report.filesRead d.path d.range) ∧
      (∀ d ∈ report.declarations, IsPlace settings.sources report.filesRead d.path d.range) ∧
      ∀ i ∈ report.instantiations, IsPlace settings.sources report.filesRead i.path i.range := by
  obtain ⟨state, ⟨steps, leads⟩, compiled⟩ := Unit.leads_unit settings root
  have reached : Unit.Stage.Reached settings root ⟨[], state⟩ := ⟨steps, leads⟩
  have located := Unit.located_finish reached.located.state
  intro report
  rw [show report = state.finish.result from compiled.symm]
  exact ⟨located.diagnostics, located.declarations, located.instantiations⟩

/-- A module that is never closed, in a file that is included, behind characters of several bytes. -/
theorem isPlace_compileUnit_of_open_block :
    let root : Path := .ofString "/p/top.sv"
    let sources : Sources :=
      ⟨fun path => some (if path == root then "`include \"a.svh\"\n" else "/* é𝄞 */ module top;\n"),
        fun _ _ => some (.ofString "/p/a.svh"), fun _ => none⟩
    let report := compileUnit ⟨sources, .empty, .warning⟩ root
    ∃ d ∈ report.diagnostics, d.name = .unterminatedBlock ∧ d.range = ⟨⟨0, 10⟩, ⟨0, 16⟩⟩ ∧
      IsPlace sources report.filesRead d.path d.range := by
  intro root sources report
  have found : report.diagnostics.map (fun d => (d.name, d.range)) =
      [(.unterminatedBlock, ⟨⟨0, 10⟩, ⟨0, 16⟩⟩)] := by decide +kernel
  obtain ⟨d, same, listed⟩ := List.map_eq_singleton_iff.1 found
  obtain ⟨name, range⟩ := Prod.mk.inj listed
  have member : d ∈ report.diagnostics := by rw [same]; exact .head _
  exact ⟨d, member, name, range,
    (isPlace_compileUnit ⟨sources, .empty, .warning⟩ root).1 d member⟩

end SvServer
