import SvServer.Proofs.Unit.Acts

/-!
# How acts change the state

Between two structure checks a unit compile only keeps its definitions, notes files and reports
findings that are not about structure. So its acts say all that happens to blocks and delimiters.
What may be reported on the way is said by a predicate on diagnostics; it tells a file from those
that it includes, and conditionals from the rest.
-/

namespace SvServer

open Hdl

/-- Whether a name is that of the structure checks, which report nothing else. -/
def DiagnosticName.isStructural : DiagnosticName → Bool
  | .unterminatedBlock | .unexpectedBlockEnd | .unbalancedDelimiter => true
  | _ => false

/-- Whether a name is neither structural nor about the balance of conditionals. -/
def DiagnosticName.isPlain (name : DiagnosticName) : Bool :=
  !name.isStructural && name ≠ .unbalancedConditional

theorem DiagnosticName.isStructural_of_isPlain {name : DiagnosticName}
    (plain : name.isPlain = true) : name.isStructural = false := by
  rw [isPlain, Bool.and_eq_true, Bool.not_eq_true'] at plain
  exact plain.1

namespace Unit

/-- The second state follows from the first by these acts, with allowed diagnostics only between the
checks. -/
inductive Edits (allowed : Diagnostic → Prop) : State → List Act → State → Prop
  | refl (state : State) : Edits allowed state [] state
  | check {before state : State} {acts : List Act} (done : Edits allowed before acts state)
      (file : SourceFile) (token : Token) (rest : List Token) (look : Lookback) :
      Edits allowed before (acts ++ [.check file token rest look])
        (state.inspect file token rest look)
  | direct {before state : State} {acts : List Act} (done : Edits allowed before acts state)
      (file : SourceFile) (directive : Token) (rest : List Token) :
      Edits allowed before (acts ++ [.direct file directive rest]) state
  | report {before state : State} {acts : List Act} (done : Edits allowed before acts state)
      (d : Diagnostic) (admitted : allowed d) : Edits allowed before acts (state.report d)
  | define {before state : State} {acts : List Act} (done : Edits allowed before acts state)
      (definitions : Definitions) :
      Edits allowed before acts { state with definitions := definitions }
  | read {before state : State} {acts : List Act} (done : Edits allowed before acts state)
      (path : Path) (revision : Option Nat) :
      Edits allowed before acts (state.addFile path revision)
  | miss {before state : State} {acts : List Act} (done : Edits allowed before acts state)
      (name : String) : Edits allowed before acts (state.addMissing name)

/-- All that is reported in a file is allowed, apart from what is structural or about the balance of
conditionals. -/
def Admits (allowed : Diagnostic → Prop) (file : SourceFile) : Prop :=
  ∀ d, d.path = file.path → d.name.isPlain = true → allowed d

/-- All that is reported about the balance of conditionals in a file is allowed. -/
def AdmitsImbalances (allowed : Diagnostic → Prop) (file : SourceFile) : Prop :=
  ∀ d, d.path = file.path → d.name = .unbalancedConditional → allowed d

variable {allowed : Diagnostic → Prop} {before middle after state : State}
variable {file : SourceFile} {token : Token} {rest : List Token}

namespace Edits

theorem trans {first second : List Act} (h : Edits allowed before first middle)
    (h' : Edits allowed middle second after) : Edits allowed before (first ++ second) after := by
  induction h' with
  | refl => rwa [List.append_nil]
  | check _ file token rest look ih =>
      rw [← List.append_assoc]
      exact ih.check file token rest look
  | direct _ file directive rest ih =>
      rw [← List.append_assoc]
      exact ih.direct file directive rest
  | report _ d admitted ih => exact ih.report d admitted
  | define _ definitions ih => exact ih.define definitions
  | read _ path revision ih => exact ih.read path revision
  | miss _ name ih => exact ih.miss name

/-- Edits without acts before others. -/
theorem silent {acts : List Act} (h : Edits allowed before [] middle)
    (h' : Edits allowed middle acts after) : Edits allowed before acts after := h.trans h'

theorem andThen {first : Effect} {next : Walk → Effect}
    (h : Edits allowed state first.acts first.walk.state)
    (h' : ∀ walk, Edits allowed walk.state (next walk).acts (next walk).walk.state) :
    Edits allowed state (first.andThen next).acts (first.andThen next).walk.state :=
  h.trans (h' first.walk)

theorem find {path : Path} {range : Range} {finding : Finding}
    (admitted : allowed (finding.located path range)) :
    Edits allowed state [] (state.find path range finding) :=
  (refl state).report _ admitted

theorem find? {path : Path} {range : Range} {finding : Option Finding}
    (admitted : ∀ found, finding = some found → allowed (found.located path range)) :
    Edits allowed state [] (state.find? path range finding) := by
  cases finding with
  | none => exact refl state
  | some found => exact find (admitted found rfl)

theorem foldl {α : Type} {step : State → α → State}
    (steps : ∀ state x, Edits allowed state [] (step state x)) (list : List α) :
    Edits allowed state [] (list.foldl step state) := by
  induction list generalizing state with
  | nil => exact refl state
  | cons first rest ih => exact (steps state first).silent ih

end Edits

/-! ## Conditionals -/

theorem edits_conditional? {progress : Progress} {done : Progress × Nat}
    (admits : Admits allowed file) (imbalances : AdmitsImbalances allowed file)
    (acted : progress.conditional? file token rest = some done) :
    Edits allowed progress.walk.state [] done.1.walk.state := by
  rw [Progress.conditional?] at acted
  dsimp only at acted
  have opened : ∀ found, (if (operand? file token rest).isNone && Chain.isActive progress.chains
      then some (Finding.expectedMacroName token.text) else none) = some found →
      allowed (found.located file.path (file.tokenRange token)) := by
    intro found named
    split at named
    · rw [← Option.some.inj named]
      exact admits _ rfl rfl
    · cases named
  split at acted
  · rw [← Option.some.inj acted]
    exact .find? opened
  · rw [← Option.some.inj acted]
    exact .find? opened
  · rw [← Option.some.inj acted]
    exact .find? fun _ found => imbalances _ rfl (Chain.name_elsifBranch found)
  · rw [← Option.some.inj acted]
    exact .find? fun _ found => imbalances _ rfl (Chain.name_elseBranch found)
  · rw [← Option.some.inj acted]
    exact .find? fun _ found => imbalances _ rfl (Chain.name_closeChain found)
  · cases acted

/-! ## What active tokens do -/

theorem edits_noteMissingName (admits : Admits allowed file) (walk : Walk) (directive : Token)
    (rest : List Token) :
    Edits allowed walk.state [] (walk.noteMissingName file directive rest).state := by
  rw [Walk.noteMissingName]
  split
  · exact .refl walk.state
  · exact .find (admits _ rfl rfl)

theorem edits_walkBody (admits : Admits allowed file) {name : String}
    {expand : String → Walk → Walk} {acts : String → Walk → List Act}
    (expands : ∀ name walk, Edits allowed walk.state (acts name walk) (expand name walk).state)
    (words : List Token) (walk : Walk) :
    Edits allowed walk.state (bodyActs file token name expand acts words walk)
      (walkBody file token name expand words walk).state := by
  induction words generalizing walk with
  | nil => exact .refl walk.state
  | cons first rest ih =>
      rw [walkBody, bodyActs]
      split
      · exact ((Edits.refl walk.state).check file first rest walk.look).trans (ih ⟨_, _⟩)
      · split
        · exact (expands first.text walk).trans (ih _)
        · split
          · exact .silent (.find (admits _ rfl rfl)) (ih ⟨_, _⟩)
          · exact ih walk

theorem edits_expand (admits : Admits allowed file) (levels : Nat) (name : String) (walk : Walk) :
    Edits allowed walk.state (expandActs file token levels name walk)
      (expand file token levels name walk).state := by
  induction levels generalizing name walk with
  | zero => exact .refl walk.state
  | succ levels ih =>
      rw [expand, expandActs]
      cases walk.state.definitions[name]? with
      | none => exact .refl walk.state
      | some definition => exact edits_walkBody admits ih _ walk

theorem edits_define (admits : Admits allowed file) (settings : Settings) :
    Edits allowed state [] (state.define settings file token rest) := by
  rcases state.define_cases settings file token rest with
    ⟨-, same⟩ | ⟨name, reported, definitions, -, rfl | rfl, same⟩ <;> rw [same]
  · exact .find (admits _ rfl rfl)
  · exact (Edits.refl _).define _
  · exact ((Edits.refl _).report _ (admits _ rfl rfl)).define _

namespace Context

variable {context : Context}

/-- Further files that a name leads to are read by their acts, as long as no open file is opened
again. -/
def Follows (context : Context) (allowed : Diagnostic → Prop) : Prop :=
  match context.compile?, context.acts? with
  | some compile, some acts => ∀ name directory inner state,
    context.settings.sources.resolve name directory = some inner.path →
    context.stack.contains inner.path = false →
    Edits allowed state (acts inner state) (compile inner state)
  | none, none => True
  | _, _ => False

variable (admits : Admits allowed context.file) (follows : context.Follows allowed)

include admits follows

theorem edits_includeFile (state : State) (name : String) (range : Range) :
    Edits allowed state (context.includeActs state name)
      (state.includeFile context.settings context.stack context.compile? context.file name
        range) := by
  obtain ⟨settings, stack, compile?, acts?, file⟩ := context
  rw [includeActs, State.includeFile, State.opened?]
  cases resolved : settings.sources.resolve name file.path.directory with
  | none =>
      cases acts? <;> exact .silent ((Edits.refl state).miss name) (.find (admits _ rfl rfl))
  | some target =>
      dsimp only
      by_cases open_ : stack.contains target = true
      · rw [if_pos open_, if_pos open_]
        cases acts? <;> exact .find (admits _ rfl rfl)
      · rw [if_neg open_, if_neg open_]
        cases compile? with
        | none =>
            cases acts? with
            | none => exact .find (admits _ rfl rfl)
            | some acts => exact follows.elim
        | some compile =>
            cases acts? with
            | none => exact follows.elim
            | some acts =>
                cases settings.sources.text target with
                | none => exact .silent ((Edits.refl state).miss name) (.find (admits _ rfl rfl))
                | some text =>
                    exact .silent ((Edits.refl state).read target _)
                      (follows name _ ⟨target, text.toList⟩ _ resolved (Bool.not_eq_true _ ▸ open_))

theorem edits_directive (state : State) :
    Edits allowed state (context.directiveActs state token rest)
      (state.directive context.settings context.stack context.compile? context.file token
        rest).1 := by
  have begun : Edits allowed state [.direct context.file token rest] state :=
    (Edits.refl state).direct context.file token rest
  rw [directiveActs, State.directive]
  refine begun.trans ?_
  split
  · rename_i included
    rw [included]
    cases includeName? context.file token rest with
    | none => exact .find (admits _ rfl rfl)
    | some found => exact edits_includeFile admits follows state _ _
  · rename_i other
    split
    · exact edits_define admits context.settings
    · split
      · exact (Edits.refl state).define _
      · exact .find (admits _ rfl rfl)
    · exact (Edits.refl state).define _
    · exact absurd ‹_› other
    · split
      · exact .refl state
      · split
        · exact .refl state
        · exact .find (admits _ rfl rfl)

/-- **What an active token calls for is done by the acts listed for it.** -/
theorem edits_act (walk : Walk) :
    Edits allowed walk.state (context.act walk token rest).acts
      (context.act walk token rest).walk.state := by
  rw [act]
  split
  · split
    · exact edits_expand admits _ _ walk
    · exact edits_directive admits follows walk.state
  · exact (Edits.refl walk.state).check _ _ _ _

variable (imbalances : AdmitsImbalances allowed context.file)

include imbalances

theorem edits_step (progress : Progress) :
    Edits allowed progress.walk.state (context.stepActs progress token rest)
      (context.step progress token rest).1.walk.state := by
  rw [stepActs, step, Progress.step]
  dsimp only
  split
  · split
    · exact edits_expand admits _ _ _
    · cases acted : progress.conditional? context.file token rest with
      | some done => exact edits_conditional? admits imbalances acted
      | none =>
          dsimp only
          split
          · exact edits_directive admits follows _
          · exact .refl _
  · split
    · exact (Edits.refl _).check _ _ _ _
    · exact .refl _

theorem edits_walk (words : List Token) (progress : Progress) :
    Edits allowed progress.walk.state (context.acts words progress)
      (context.walk words progress).walk.state := by
  induction words, progress using Context.acts.induct context with
  | case1 progress =>
      rw [acts_nil, walk_nil]
      exact .refl _
  | case2 token rest progress after used stepped ih =>
      rw [acts_cons, walk_cons, stepped]
      have first : Edits allowed progress.walk.state (context.stepActs progress token rest)
          (context.step progress token rest).1.walk.state :=
        edits_step admits follows imbalances progress
      rw [stepped] at first
      exact first.trans ih

end Context

/-! ## Files -/

theorem edits_begin (admits : Admits allowed file) : Edits allowed state [] (state.begin file) := by
  refine .foldl (fun state (error : LexicalError) => .find ?_) _
  cases error.kind <;> exact admits _ rfl rfl

theorem edits_close (imbalances : AdmitsImbalances allowed file) (progress : Progress) :
    Edits allowed progress.walk.state [] (progress.close file) :=
  .foldl (fun _ _ => .find (imbalances _ rfl rfl)) _

theorem edits_compileFile_of_follows {settings : Settings} {room : Nat} {stack : List Path}
    (admits : Admits allowed file) (imbalances : AdmitsImbalances allowed file)
    (follows : (Context.ofFile settings room stack file).Follows allowed) (state : State) :
    Edits allowed state (fileActs settings room stack file state)
      (compileFile settings room stack file state) := by
  rw [fileActs_eq, compileFile_eq_close]
  have walked := (edits_begin admits).silent
    (Context.edits_walk admits follows imbalances (tokens file.text)
      ⟨⟨state.begin file, .start⟩, []⟩)
  have closed := walked.trans (edits_close imbalances _)
  rwa [List.append_nil] at closed

/-- Only files that are not open are opened, so what is allowed outside of the open files is enough
for all that a file includes. -/
theorem follows_ofFile (settings : Settings) (room : Nat) (stack : List Path) (file : SourceFile)
    (outside : ∀ d, (file.path :: stack).contains d.path = false → d.name.isStructural = false →
      allowed d) : (Context.ofFile settings room stack file).Follows allowed := by
  induction room generalizing stack file with
  | zero => trivial
  | succ room ih =>
      intro _ _ inner state _ unopened
      refine edits_compileFile_of_follows ?_ ?_ (ih _ inner ?_) state
      · intro d here plain
        exact outside d (here ▸ unopened) (DiagnosticName.isStructural_of_isPlain plain)
      · intro d here name
        exact outside d (here ▸ unopened) (by rw [name]; rfl)
      · intro d unopened
        rw [List.contains_cons, Bool.or_eq_false_iff] at unopened
        exact outside d unopened.2

/-- **A file is read by its acts**, if all is allowed that can be reported between the checks. -/
theorem edits_compileFile (settings : Settings) (room : Nat) (stack : List Path)
    (file : SourceFile) (state : State)
    (admits : ∀ d, d.name.isStructural = false → allowed d) :
    Edits allowed state (fileActs settings room stack file state)
      (compileFile settings room stack file state) := by
  refine edits_compileFile_of_follows ?_ ?_
    (follows_ofFile settings room stack file fun d _ => admits d) state
  · intro d _ plain
    exact admits d (DiagnosticName.isStructural_of_isPlain plain)
  · intro d _ name
    exact admits d (by rw [name]; rfl)

/-! ## What the checks report -/

/-- The state has the diagnostics of another one, and structural ones after them. -/
def State.Adds (before after : State) : Prop :=
  ∃ found, after.result.diagnostics = before.result.diagnostics ++ found ∧
    ∀ d ∈ found, d.name.isStructural = true

theorem State.Adds.of_eq (same : after.result.diagnostics = before.result.diagnostics) :
    before.Adds after := ⟨[], by rw [same, List.append_nil], nofun⟩

/-- A block that is opened is put on top of those that are open, and may be declared. -/
theorem exists_openBlock_eq (state : State) (file : SourceFile) (token : Token)
    (closers : List String) (rest : List Token) :
    ∃ declarations, state.openBlock file token closers rest =
      { state with
        blocks := ⟨token.text, closers, DesignElement.ofOpener? token.text, file.path,
          file.tokenRange token⟩ :: state.blocks
        result := { state.result with declarations := declarations } } := by
  rcases state.openBlock_cases file token rest closers with same | ⟨_, _, _, -, -, -, same⟩
  · exact ⟨_, same⟩
  · exact ⟨_, same⟩

theorem adds_closeBlock : state.Adds (state.closeBlock file token) := by
  rcases state.closeBlock_cases file token with same | ⟨skipped, closed, outer, -, same⟩ <;> rw [same]
  · exact ⟨_, rfl, fun d member => by rw [List.mem_singleton.1 member]; rfl⟩
  · refine ⟨_, rfl, fun d member => ?_⟩
    obtain ⟨block, -, rfl⟩ := List.mem_map.1 member
    rfl

theorem adds_closeDelimiter (delimiter : Delimiter) :
    state.Adds (state.closeDelimiter file token delimiter) := by
  rcases state.closeDelimiter_cases file token delimiter with
    same | ⟨innermost, outer, -, same⟩ | ⟨innermost, remaining, -, same⟩ <;> rw [same]
  · exact ⟨_, rfl, fun d member => by rw [List.mem_singleton.1 member]; rfl⟩
  · exact .of_eq rfl
  · exact ⟨_, rfl, fun d member => by rw [List.mem_singleton.1 member]; rfl⟩

/-- A check reports nothing but what is structural. -/
theorem adds_inspect (state : State) (file : SourceFile) (token : Token) (rest : List Token)
    (look : Lookback) : state.Adds (state.inspect file token rest look) := by
  rcases state.inspect_cases file token rest look with
    same | ⟨-, same | ⟨closers, -, same⟩ | same⟩ | ⟨delimiter, same | same⟩ <;> rw [same]
  · exact .of_eq rfl
  · exact adds_closeBlock
  · obtain ⟨declarations, opened⟩ := exists_openBlock_eq state file token closers rest
    rw [opened]
    exact .of_eq rfl
  · exact .of_eq rfl
  · exact .of_eq rfl
  · exact adds_closeDelimiter delimiter

/-- What is about something else leaves no trace. -/
theorem filter_append_of_none {which : Diagnostic → Bool} (known : List Diagnostic)
    {found : List Diagnostic} (other : ∀ d ∈ found, which d = false) :
    (known ++ found).filter which = known.filter which := by
  have none : found.filter which = [] :=
    List.filter_eq_nil_iff.2 fun d member => by rw [other d member]; exact nofun
  rw [List.filter_append, none, List.append_nil]

/-- **Diagnostics that are neither structural nor allowed are as before.** -/
theorem Edits.filter_diagnostics {acts : List Act} (edits : Edits allowed before acts after)
    (which : Diagnostic → Bool) (structural : ∀ d, d.name.isStructural = true → which d = false)
    (excluded : ∀ d, allowed d → which d = false) :
    after.result.diagnostics.filter which = before.result.diagnostics.filter which := by
  induction edits with
  | refl => rfl
  | check done file token rest look ih =>
      rename_i state acts
      obtain ⟨found, added, names⟩ := adds_inspect state file token rest look
      rw [added, filter_append_of_none _ fun d member => structural d (names d member), ih]
  | report done d admitted ih =>
      have other : ∀ found ∈ [d], which found = false :=
        List.forall_mem_singleton.2 (excluded d admitted)
      exact (filter_append_of_none _ other).trans ih
  | direct _ _ _ _ ih | define _ _ ih | read _ _ _ ih | miss _ _ ih => exact ih

end Unit

end SvServer
