import SvServer.Unit.Compile
import SvServer.Proofs.PathSet

/-!
# What a unit compile notes about the files it reads

The state of a unit compile holds the root, the files read so far and the revisions of their
buffers. Only following an include adds to them. Every other step neither looks at them nor changes
them: it commutes with replacing them by anything else. From this one fact follow the shape of a
whole compile: the root stays what it was, files are only ever added, and what else is found does
not depend on revisions.
-/

namespace SvServer.Unit

open Hdl

/-- The part of a state that is about files read. -/
structure Reads where
  root : Path
  files : PathSet
  revisions : PathMap (Option Nat)

/-- One more file was read. -/
def Reads.add (reads : Reads) (path : Path) (revision : Option Nat) : Reads :=
  ⟨reads.root, reads.files.insert path, reads.revisions.put path revision⟩

namespace State

def reads (state : State) : Reads :=
  ⟨state.result.root, state.result.filesRead, state.result.revisions⟩

/-- The state with that part replaced. -/
def withReads (state : State) (reads : Reads) : State :=
  { state with result :=
      { state.result with
        root := reads.root
        filesRead := reads.files
        revisions := reads.revisions } }

@[simp] theorem withReads_reads (state : State) : state.withReads state.reads = state := rfl

@[simp] theorem reads_withReads (state : State) (reads : Reads) :
    (state.withReads reads).reads = reads := rfl

@[simp] theorem withReads_blocks (state : State) (reads : Reads) :
    (state.withReads reads).blocks = state.blocks := rfl

@[simp] theorem withReads_delimiters (state : State) (reads : Reads) :
    (state.withReads reads).delimiters = state.delimiters := rfl

@[simp] theorem reads_addFile (state : State) (path : Path) (revision : Option Nat) :
    (state.addFile path revision).reads = state.reads.add path revision := rfl

/-! ## Steps that leave the reads alone -/

variable (state : State) (reads : Reads)

@[simp] theorem withReads_find? (path : Path) (range : Range) (finding : Option Finding) :
    (state.withReads reads).find? path range finding =
      (state.find? path range finding).withReads reads := by
  cases finding <;> rfl

@[simp] theorem withReads_finish : (state.withReads reads).finish = state.finish.withReads reads :=
  rfl

theorem withReads_declare (file : SourceFile) (kind : DesignElement) (rest : List Token) :
    (state.withReads reads).declare file kind rest =
      (state.declare file kind rest).withReads reads := by
  simp only [declare]
  cases declaredName? nameReach rest with
  | none => rfl
  | some found =>
      obtain ⟨name, header⟩ := found
      dsimp only
      cases isReserved name.text <;> rfl

theorem withReads_openBlock (file : SourceFile) (token : Token) (closers : List String)
    (rest : List Token) :
    (state.withReads reads).openBlock file token closers rest =
      (state.openBlock file token closers rest).withReads reads := by
  simp only [openBlock, withReads_blocks, withReads_declare]
  cases DesignElement.ofOpener? token.text with
  | none => rfl
  | some kind =>
      dsimp only
      cases state.blocks.any fun block => block.designElement.isSome <;> rfl

theorem withReads_closeBlock (file : SourceFile) (token : Token) :
    (state.withReads reads).closeBlock file token =
      (state.closeBlock file token).withReads reads := by
  simp only [closeBlock, withReads_blocks]
  cases state.blocks.drop
    (state.blocks.takeWhile fun block => !block.closers.contains token.text).length <;> rfl

theorem withReads_closeDelimiter (file : SourceFile) (token : Token) (delimiter : Delimiter) :
    (state.withReads reads).closeDelimiter file token delimiter =
      (state.closeDelimiter file token delimiter).withReads reads := by
  simp only [closeDelimiter, withReads_delimiters]
  cases state.delimiters with
  | nil => rfl
  | cons innermost outer =>
      by_cases same : innermost.delimiter = delimiter
      · simp only [if_pos same]
        rfl
      · -- Delimiters that do not match are looked for further out.
        simp only [if_neg same]
        cases outer.dropWhile fun opened => decide (opened.delimiter ≠ delimiter) <;> rfl

theorem withReads_word (file : SourceFile) (token : Token) (rest : List Token) (look : Lookback) :
    (state.withReads reads).word file token rest look =
      (state.word file token rest look).withReads reads := by
  simp only [word, withReads_blocks, withReads_closeBlock, withReads_openBlock]
  cases isBlockCloser token.text with
  | true => rfl
  | false =>
      cases blockClosers? token.text with
      | some closers => cases opensBlock token.text look (rest.head?.map Token.text) <;> rfl
      | none =>
          by_cases placed : (!isReserved token.text && look.startsItem &&
              holdsInstances state.blocks && isInstantiation rest) = true
          · simp only [placed, if_true]
            rfl
          · simp only [placed]
            rfl

@[simp] theorem withReads_inspect (file : SourceFile) (token : Token) (rest : List Token)
    (look : Lookback) :
    (state.withReads reads).inspect file token rest look =
      (state.inspect file token rest look).withReads reads := by
  simp only [inspect, withReads_word, withReads_closeDelimiter]
  cases token.kind <;> rfl

theorem withReads_define (settings : Settings) (file : SourceFile) (directive : Token)
    (rest : List Token) :
    (state.withReads reads).define settings file directive rest =
      (state.define settings file directive rest).withReads reads := by
  cases operand : operand? file directive rest with
  | none =>
      simp only [define, operand]
      rfl
  | some name =>
      cases stored : state.definitions[name.text]? with
      | none =>
          have stored' : (state.withReads reads).definitions[name.text]? = none := stored
          simp only [define, operand, stored, stored']
          rfl
      | some known =>
          have stored' : (state.withReads reads).definitions[name.text]? = some known := stored
          simp only [define, operand, stored, stored']
          cases !known.fromProject &&
            known.body ≠ storedBody (Text.slice file.text name.stop (file.lineEnd directive)) <;>
          rfl

end State

/-! ## Walks -/

def Walk.withReads (walk : Walk) (reads : Reads) : Walk :=
  { walk with state := walk.state.withReads reads }

def Progress.withReads (progress : Progress) (reads : Reads) : Progress :=
  { progress with walk := progress.walk.withReads reads }

def Progress.reads (progress : Progress) : Reads := progress.walk.state.reads

@[simp] theorem Progress.withReads_reads (progress : Progress) :
    progress.withReads progress.reads = progress := rfl

@[simp] theorem Progress.reads_withReads (progress : Progress) (reads : Reads) :
    (progress.withReads reads).reads = reads := rfl

theorem withReads_walkBody (file : SourceFile) (site : Token) (name : String)
    {expand : String → Walk → Walk} (reads : Reads)
    (expands : ∀ name walk, expand name (walk.withReads reads) = (expand name walk).withReads reads)
    (tokens : List Token) (walk : Walk) :
    walkBody file site name expand tokens (walk.withReads reads) =
      (walkBody file site name expand tokens walk).withReads reads := by
  induction tokens generalizing walk with
  | nil => rfl
  | cons token rest ih =>
      rw [walkBody, walkBody]
      by_cases plain : token.kind ≠ .directive
      · rw [if_pos plain, if_pos plain, ← ih]
        simp only [Walk.withReads, State.withReads_inspect]
      · -- A directive in a body is a use of a macro, an unknown name, or passed over.
        rw [if_neg plain, if_neg plain]
        by_cases use : walk.state.isObjectLike token.text = true
        · have use' : (walk.withReads reads).state.isObjectLike token.text = true := use
          rw [if_pos use, if_pos use', expands, ih]
        · have use' : ¬(walk.withReads reads).state.isObjectLike token.text = true := use
          rw [if_neg use, if_neg use']
          by_cases unknown : (!walk.state.definitions.contains token.text &&
              !isDirectiveName token.text) = true
          · have unknown' : (!(walk.withReads reads).state.definitions.contains token.text &&
                !isDirectiveName token.text) = true := unknown
            rw [if_pos unknown, if_pos unknown', ← ih]
            rfl
          · have unknown' : ¬(!(walk.withReads reads).state.definitions.contains token.text &&
                !isDirectiveName token.text) = true := unknown
            rw [if_neg unknown, if_neg unknown', ih]

/-- Expanding a macro opens no file: a body holds no include directive that is acted on. -/
theorem withReads_expand (file : SourceFile) (site : Token) (levels : Nat) (name : String)
    (walk : Walk) (reads : Reads) :
    expand file site levels name (walk.withReads reads) =
      (expand file site levels name walk).withReads reads := by
  induction levels generalizing name walk with
  | zero => rfl
  | succ levels ih =>
      cases stored : walk.state.definitions[name]? with
      | none =>
          have stored' : (walk.withReads reads).state.definitions[name]? = none := stored
          simp only [expand, stored, stored']
      | some definition =>
          have stored' : (walk.withReads reads).state.definitions[name]? = some definition := stored
          simp only [expand, stored, stored']
          exact withReads_walkBody file site name reads (fun name walk => ih name walk) _ walk

theorem Progress.withReads_afterBranch (progress : Progress) (reads : Reads) (file : SourceFile)
    (directive : Token) (step : List Chain × Option Finding) :
    (progress.withReads reads).afterBranch file directive step =
      (progress.afterBranch file directive step).withReads reads := by
  simp only [afterBranch, withReads, Walk.withReads, State.withReads_find?]

theorem Progress.withReads_conditional? (progress : Progress) (reads : Reads) (file : SourceFile)
    (directive : Token) (rest : List Token) :
    (progress.withReads reads).conditional? file directive rest =
      (progress.conditional? file directive rest).map fun after =>
        (after.1.withReads reads, after.2) := by
  have chains : (progress.withReads reads).chains = progress.chains := rfl
  have definitions : (progress.withReads reads).walk.state.definitions =
      progress.walk.state.definitions := rfl
  simp only [conditional?, chains, definitions, withReads_afterBranch]
  split <;> rfl

/-! ## Steps -/

/-- The include that a step follows: active, and with a name that can be read. -/
def includeSite? (progress : Progress) (file : SourceFile) (token : Token) (rest : List Token) :
    Option (String × Range) :=
  if token.kind = .directive ∧ token.text = "include" ∧ Chain.isActive progress.chains = true then
    includeName? file token rest
  else none

/-- Follows an include from within a file. -/
def Progress.includeFile (progress : Progress) (settings : Settings) (stack : List Path)
    (compile? : Option (SourceFile → State → State)) (file : SourceFile)
    (site : String × Range) : Progress :=
  { progress with walk := { progress.walk with
      state := progress.walk.state.includeFile settings stack compile? file site.1 site.2 } }

theorem isObjectLike_include (state : State) : state.isObjectLike "include" = false := rfl

theorem Progress.conditional?_include (progress : Progress) (file : SourceFile)
    {directive : Token} (rest : List Token) (h : directive.text = "include") :
    progress.conditional? file directive rest = none := by
  unfold conditional?
  rw [h]
  rfl

section Step

variable (settings settings' : Settings) (stack stack' : List Path)
variable (compile? compile?' : Option (SourceFile → State → State))
variable (file : SourceFile) (token : Token) (rest : List Token)

/-- At an include the step is to follow it. -/
theorem Progress.step_of_site {progress : Progress} {site : String × Range}
    (h : includeSite? progress file token rest = some site) :
    progress.step settings stack compile? file token rest =
      (progress.includeFile settings stack compile? file site, lineLength file token rest) := by
  rw [includeSite?] at h
  split at h
  · rename_i here
    obtain ⟨directive, included, active⟩ := here
    rw [step, if_pos directive, included, isObjectLike_include, Bool.and_false]
    simp only [Bool.false_eq_true, if_false, conditional?_include progress file rest included,
      active, if_true, State.directive, included, h, includeFile]
  · exact absurd h nofun

/-- Directives other than a readable include leave the reads alone, and do not depend on what is
around the file. -/
theorem State.withReads_directive (state : State) (reads : Reads)
    (severity : settings'.redefinedSeverity = settings.redefinedSeverity)
    (h : token.text = "include" → includeName? file token rest = none) :
    (state.withReads reads).directive settings' stack' compile?' file token rest =
      ((state.directive settings stack compile? file token rest).1.withReads reads,
        (state.directive settings stack compile? file token rest).2) := by
  have defined : (state.withReads reads).define settings' file token rest =
      (state.define settings file token rest).withReads reads := by
    rw [withReads_define]
    simp only [define, severity]
  have definitions : (state.withReads reads).definitions = state.definitions := rfl
  unfold directive
  split
  · exact Prod.ext defined rfl
  · cases operand? file token rest <;> rfl
  · rfl
  · rename_i included
    simp only [h included]
    rfl
  · simp only [definitions]
    split
    · rfl
    · split <;> rfl

/-- **Away from includes a step leaves the reads alone**, and does not depend on what is around the
file. -/
theorem Progress.withReads_step (progress : Progress) (reads : Reads)
    (severity : settings'.redefinedSeverity = settings.redefinedSeverity)
    (h : includeSite? progress file token rest = none) :
    (progress.withReads reads).step settings' stack' compile?' file token rest =
      ((progress.step settings stack compile? file token rest).1.withReads reads,
        (progress.step settings stack compile? file token rest).2) := by
  have chains : (progress.withReads reads).chains = progress.chains := rfl
  have object : (progress.withReads reads).walk.state.isObjectLike token.text =
      progress.walk.state.isObjectLike token.text := rfl
  rw [step, step, chains, object]
  by_cases directive : token.kind = .directive
  · rw [if_pos directive, if_pos directive]
    by_cases use : (Chain.isActive progress.chains &&
        progress.walk.state.isObjectLike token.text) = true
    · simp only [use, if_true]
      exact Prod.ext (congrArg (Progress.mk · progress.chains)
        (withReads_expand file token expansionDepth token.text progress.walk reads)) rfl
    · simp only [use, if_false, Bool.false_eq_true, withReads_conditional?]
      cases progress.conditional? file token rest with
      | some after => rfl
      | none =>
          cases active : Chain.isActive progress.chains with
          | false => rfl
          | true =>
              -- An include that could be read is excluded by the premise.
              have unread : token.text = "include" → includeName? file token rest = none := by
                intro included
                rwa [includeSite?, if_pos ⟨directive, included, active⟩] at h
              have acted := State.withReads_directive settings settings' stack stack' compile?
                compile?' file token rest progress.walk.state reads severity unread
              simp only [Option.map_none, if_true]
              simp only [withReads, Walk.withReads]
              rw [acted]
  · rw [if_neg directive, if_neg directive]
    cases Chain.isActive progress.chains with
    | false => rfl
    | true =>
        simp only [if_true, withReads, Walk.withReads, State.withReads_inspect]

theorem Progress.reads_step (progress : Progress)
    (h : includeSite? progress file token rest = none) :
    (progress.step settings stack compile? file token rest).1.reads = progress.reads := by
  have same := withReads_step settings settings stack stack compile? compile? file token rest
    progress progress.reads rfl h
  rw [withReads_reads] at same
  rw [same, reads_withReads]

end Step

/-! ## Whole files -/

/-- The state with the lexical errors of a file. -/
def State.begin (state : State) (file : SourceFile) : State :=
  (lexicalErrors file.text).foldl (fun state error =>
    state.find file.path (file.range error.start error.stop) (lexicalFinding error.kind)) state

/-- The state at the end of a file, with the chains that are still open. -/
def Progress.close (progress : Progress) (file : SourceFile) : State :=
  progress.chains.reverse.foldl
    (fun state chain => state.find file.path chain.range .missingEndif) progress.walk.state

/-- How a further file is read, if one may be opened. -/
def compiler? (settings : Settings) (room : Nat) (around : List Path) :
    Option (SourceFile → State → State) :=
  match room with
  | 0 => none
  | room + 1 => some (compileFile settings room around)

theorem compileFile_eq (settings : Settings) (room : Nat) (stack : List Path) (file : SourceFile)
    (state : State) :
    compileFile settings room stack file state =
      (walkTokens settings (file.path :: stack) (compiler? settings room (file.path :: stack)) file
        (tokens file.text) ⟨⟨state.begin file, .start⟩, []⟩).close file := by
  cases room <;> rfl

theorem withReads_foldl {α : Type} {step : State → α → State} (reads : Reads)
    (steady : ∀ state x, step (state.withReads reads) x = (step state x).withReads reads)
    (list : List α) (state : State) :
    list.foldl step (state.withReads reads) = (list.foldl step state).withReads reads := by
  induction list generalizing state with
  | nil => rfl
  | cons first rest ih => rw [List.foldl_cons, List.foldl_cons, steady, ih]

@[simp] theorem State.withReads_begin (state : State) (reads : Reads) (file : SourceFile) :
    (state.withReads reads).begin file = (state.begin file).withReads reads :=
  withReads_foldl reads (fun _ _ => rfl) _ _

@[simp] theorem Progress.withReads_close (progress : Progress) (reads : Reads)
    (file : SourceFile) :
    (progress.withReads reads).close file = (progress.close file).withReads reads :=
  withReads_foldl reads (fun _ _ => rfl) _ _

theorem State.reads_begin (state : State) (file : SourceFile) :
    (state.begin file).reads = state.reads := by
  rw [← withReads_reads state, withReads_begin, reads_withReads, reads_withReads]

theorem Progress.reads_close (progress : Progress) (file : SourceFile) :
    (progress.close file).reads = progress.reads := by
  rw [← withReads_reads progress, withReads_close, State.reads_withReads, reads_withReads]

section Related

variable (settings : Settings) (related : Reads → Reads → Prop)
variable (refl : ∀ reads, related reads reads)
variable (trans : ∀ a b c, related a b → related b c → related a c)
variable (add : ∀ reads name directory path, settings.sources.resolve name directory = some path →
  settings.sources.text path ≠ none →
  related reads (reads.add path (settings.sources.revision path)))

include refl trans add

theorem State.includeFile_related (state : State) (stack : List Path)
    {compile? : Option (SourceFile → State → State)} (file : SourceFile) (name : String)
    (range : Range)
    (compiles : ∀ compile, compile? = some compile → ∀ file state,
      related (State.reads state) (State.reads (compile file state))) :
    related state.reads (state.includeFile settings stack compile? file name range).reads := by
  rw [includeFile]
  cases resolved : settings.sources.resolve name file.path.directory with
  | none => exact refl _
  | some target =>
      dsimp only
      by_cases open_ : stack.contains target = true
      · rw [if_pos open_]
        exact refl _
      · rw [if_neg open_]
        cases compile? with
        | none => exact refl _
        | some compile =>
            dsimp only
            cases read : settings.sources.text target with
            | none => exact refl _
            | some text =>
                -- The file is added, and then its own text is compiled.
                apply trans _ _ _ _ (compiles compile rfl _ _)
                apply add _ _ _ _ resolved
                rw [read]
                exact Option.some_ne_none text

theorem walkTokens_related (stack : List Path)
    (compile? : Option (SourceFile → State → State)) (file : SourceFile)
    (compiles : ∀ compile, compile? = some compile → ∀ file state,
      related (State.reads state) (State.reads (compile file state)))
    (tokens : List Token) (progress : Progress) :
    related progress.reads (walkTokens settings stack compile? file tokens progress).reads := by
  induction tokens, progress using walkTokens.induct settings stack compile? file with
  | case1 progress =>
      rw [walkTokens]
      exact refl _
  | case2 token rest progress after used stepped ih =>
      -- One step, which may follow an include, and then the rest of the tokens.
      rw [walkTokens, stepped]
      refine trans _ _ _ ?_ ih
      have left : after = (progress.step settings stack compile? file token rest).1 := by
        rw [stepped]
      rw [left]
      cases site : includeSite? progress file token rest with
      | none =>
          rw [Progress.reads_step settings stack compile? file token rest progress site]
          exact refl _
      | some found =>
          rw [Progress.step_of_site settings stack compile? file token rest site]
          exact State.includeFile_related settings related refl trans add _ stack file _ _ compiles

/-- **What a file adds to the reads** is a series of single additions of readable files that names
stand for. -/
theorem compileFile_related (room : Nat) (stack : List Path) (file : SourceFile) (state : State) :
    related state.reads (compileFile settings room stack file state).reads := by
  induction room generalizing stack file state with
  | zero =>
      rw [compileFile_eq, Progress.reads_close]
      have walked := walkTokens_related settings related refl trans add (file.path :: stack) none
        file (fun _ opened => nomatch opened) (tokens file.text) ⟨⟨state.begin file, .start⟩, []⟩
      rwa [Progress.reads, State.reads_begin] at walked
  | succ room ih =>
      have walked := walkTokens_related settings related refl trans add (file.path :: stack)
        (some (compileFile settings room (file.path :: stack))) file
        (fun compile opened => Option.some.inj opened ▸ ih _) (tokens file.text)
        ⟨⟨state.begin file, .start⟩, []⟩
      rw [compileFile_eq, Progress.reads_close]
      rwa [Progress.reads, State.reads_begin] at walked

end Related

/-! ## Units -/

/-- Compiling files never changes what the root is. -/
theorem root_compileFile (settings : Settings) (room : Nat) (stack : List Path)
    (file : SourceFile) (state : State) :
    (compileFile settings room stack file state).reads.root = state.reads.root :=
  compileFile_related settings (fun before after => after.root = before.root)
    (fun _ => rfl) (fun _ _ _ first second => second.trans first) (fun _ _ _ _ _ _ => rfl)
    room stack file state

/-- **A file once read stays read.** -/
theorem files_compileFile (settings : Settings) (room : Nat) (stack : List Path)
    (file : SourceFile) (state : State) {path : Path}
    (h : state.reads.files.contains path = true) :
    (compileFile settings room stack file state).reads.files.contains path = true :=
  compileFile_related settings
    (fun before after => before.files.contains path = true → after.files.contains path = true)
    (fun _ h => h) (fun _ _ _ first second h => second (first h))
    (fun reads _ _ file _ _ h => by rw [Reads.add, PathSet.contains_insert, h, Bool.or_true])
    room stack file state h

theorem files_walkTokens (settings : Settings) (room : Nat) (stack : List Path)
    (file : SourceFile) (tokens : List Token) (progress : Progress) {path : Path}
    (h : progress.reads.files.contains path = true) :
    (walkTokens settings stack (compiler? settings room stack) file tokens
      progress).reads.files.contains path = true :=
  walkTokens_related settings
    (fun before after => before.files.contains path = true → after.files.contains path = true)
    (fun _ h => h) (fun _ _ _ first second h => second (first h))
    (fun reads _ _ file _ _ h => by rw [Reads.add, PathSet.contains_insert, h, Bool.or_true])
    stack (compiler? settings room stack) file
    (fun compile opened file state h => by
      cases room with
      | zero => exact nomatch opened
      | succ room =>
          rw [← Option.some.inj opened]
          exact files_compileFile settings room stack file state h)
    tokens progress h

/-- A file that is read while another one is compiled was read before, or a name stands for it. -/
theorem resolved_of_compileFile (settings : Settings) (room : Nat) (stack : List Path)
    (file : SourceFile) (state : State) {path : Path}
    (read : (compileFile settings room stack file state).reads.files.contains path = true) :
    state.reads.files.contains path = true ∨ ∃ name directory target,
      settings.sources.resolve name directory = some target ∧ (target == path) = true := by
  refine compileFile_related settings
    (fun before after => after.files.contains path = true → before.files.contains path = true ∨
      ∃ name directory target, settings.sources.resolve name directory = some target ∧
        (target == path) = true)
    (fun _ => .inl) (fun _ _ _ first second read => (second read).elim first .inr) ?_
    room stack file state read
  intro reads name directory target resolved _ read
  rw [Reads.add, PathSet.contains_insert, Bool.or_eq_true] at read
  rcases read with same | before
  · exact .inr ⟨name, directory, target, resolved, same⟩
  · exact .inl before

end SvServer.Unit

namespace SvServer

/-- **The report of a unit is about its root.** -/
@[simp] theorem root_compileUnit (settings : Unit.Settings) (root : Path) :
    (compileUnit settings root).root = root := by
  rw [compileUnit]
  cases settings.sources.text root with
  | none => rfl
  | some text => exact Unit.root_compileFile settings _ _ _ _

/-- A root that can be read is among the files read. -/
theorem contains_filesRead_root (settings : Unit.Settings) {root : Path}
    (readable : settings.sources.text root ≠ none) :
    (compileUnit settings root).filesRead.contains root = true := by
  rw [compileUnit]
  cases read : settings.sources.text root with
  | none => exact absurd read readable
  | some text =>
      show (Unit.compileFile settings _ _ _ _).reads.files.contains root = true
      apply Unit.files_compileFile
      rw [Unit.State.reads_addFile, Unit.Reads.add, PathSet.contains_insert, BEq.rfl, Bool.true_or]

/-- **What a unit reads** is its root and files that names stand for. -/
theorem resolved_of_filesRead {settings : Unit.Settings} {root path : Path}
    (read : (compileUnit settings root).filesRead.contains path = true) :
    (root == path) = true ∨ ∃ name directory target,
      settings.sources.resolve name directory = some target ∧ (target == path) = true := by
  rw [compileUnit] at read
  cases text : settings.sources.text root with
  | none =>
      rw [text] at read
      exact absurd read (by simp [UnitReport.empty])
  | some text =>
      rw [text] at read
      refine (Unit.resolved_of_compileFile settings _ _ _ _ read).imp_left fun begun => ?_
      rw [Unit.State.reads_addFile, Unit.Reads.add, PathSet.contains_insert, Bool.or_eq_true]
        at begun
      refine begun.resolve_right ?_
      simp [Unit.State.reads, Unit.State.initial, UnitReport.empty]

end SvServer
