import Mathlib.Logic.Function.Iterate
import SvServer.Proofs.Unit.Reads

/-!
# A unit compile step by step

The compile of a unit recurs in three ways: a file is read within the file that includes it, the body
of a macro is walked within the text that uses it, and in each text the tokens are taken one after the
other. Here the same compile goes by single steps over a stack of what is open. A step looks at the
stack alone to tell whether a file or a body may be opened; there is no count of what may still be
opened, and nothing says beforehand that the steps come to an end. They do, and where they end the
report is that of the compile.
-/

namespace SvServer

open Hdl

namespace Unit

/-! ## Stages -/

/-- The body of a macro that is being walked, in the place of a use. -/
structure OpenBody where
  site : Token
  name : String
  ahead : List Token

/-- A file that is being walked. -/
structure OpenFile where
  file : SourceFile
  ahead : List Token
  look : Lookback
  chains : List Chain
  /-- The bodies that are being walked in the place of a token of the file, innermost first -/
  bodies : List OpenBody

/-- Where the compile of a unit stands. -/
structure Stage where
  /-- The files that are open, innermost first -/
  files : List OpenFile
  state : State

namespace OpenFile

/-- A file of which nothing was walked yet. -/
def begin (file : SourceFile) : OpenFile := ⟨file, tokens file.text, .start, [], []⟩

/-- How far the walk through the file has come. -/
def progress (opened : OpenFile) (state : State) : Progress := ⟨⟨state, opened.look⟩, opened.chains⟩

/-- Opens the body of a macro at a use, if bodies are not nested too deep. -/
def use (opened : OpenFile) (state : State) (site : Token) (name : String) : OpenFile :=
  match state.definitions[name]? with
  | none => opened
  | some definition =>
    if opened.bodies.length < expansionDepth then
      { opened with
        bodies := ⟨site, name, bodyTokens definition.body site⟩ :: opened.bodies }
    else opened

/-- One step in the innermost body. -/
def stepBody (opened : OpenFile) (state : State) (body : OpenBody) (others : List OpenBody) :
    OpenFile × State :=
  match body.ahead with
  | [] => ({ opened with bodies := others }, state)
  | token :: rest =>
    let passed : OpenFile := { opened with bodies := { body with ahead := rest } :: others }
    if token.kind ≠ .directive then
      ({ passed with look := opened.look.push token },
        state.inspect opened.file token rest opened.look)
    else if state.isObjectLike token.text then (passed.use state body.site token.text, state)
    else if !state.definitions.contains token.text && !isDirectiveName token.text then
      (passed, state.find opened.file.path (opened.file.tokenRange body.site)
        (.unknownUseWithin token.text body.name))
    else (passed, state)

end OpenFile

namespace Stage

/-- The paths of the open files, innermost first. -/
def stack (stage : Stage) : List Path := stage.files.map (·.file.path)

/-- Opens the file that an include name stands for, unless it is open already or too many are. -/
def openInclude (settings : Settings) (opened : OpenFile) (outer : List OpenFile) (state : State)
    (name : String) (range : Range) : Stage :=
  let path := opened.file.path
  let stack := path :: outer.map (·.file.path)
  match settings.sources.resolve name path.directory with
  | none => ⟨opened :: outer, (state.addMissing name).find path range (.includeNotFound name)⟩
  | some target =>
    if stack.contains target then
      ⟨opened :: outer, state.find path range (.includesItself name)⟩
    else if openFileLimit ≤ stack.length then
      ⟨opened :: outer, state.find path range (.includesTooDeep openFileLimit)⟩
    else match settings.sources.text target with
      | none => ⟨opened :: outer, (state.addMissing name).find path range (.includeUnreadable name)⟩
      | some text =>
        let inner : SourceFile := ⟨target, text.toList⟩
        ⟨.begin inner :: opened :: outer,
          (state.addFile target (settings.sources.revision target)).begin inner⟩

/-- One step in the innermost file, where no body is open. -/
def stepFile (settings : Settings) (opened : OpenFile) (outer : List OpenFile) (state : State) :
    Stage :=
  match opened.ahead with
  | [] => ⟨outer, (opened.progress state).close opened.file⟩
  | token :: rest =>
    if token.kind = .directive ∧ (Chain.isActive opened.chains && state.isObjectLike token.text) then
      ⟨{ opened with ahead := rest }.use state token token.text :: outer, state⟩
    else match includeSite? (opened.progress state) opened.file token rest with
      | some (name, range) =>
        let line := lineLength opened.file token rest
        openInclude settings { opened with ahead := rest.drop line } outer state name range
      | none =>
        -- Away from includes a step asks neither for the open files nor for a way to open one.
        let (after, used) := (opened.progress state).step settings [] none opened.file token rest
        ⟨{ opened with
            ahead := rest.drop used
            look := after.walk.look
            chains := after.chains } :: outer, after.walk.state⟩

/-- One step. Where no file is open any more nothing is left to do. -/
def next (settings : Settings) (stage : Stage) : Stage :=
  match stage.files with
  | [] => stage
  | opened :: outer =>
    match opened.bodies with
    | body :: others =>
      let (opened, state) := opened.stepBody stage.state body others
      ⟨opened :: outer, state⟩
    | [] => stepFile settings opened outer stage.state

/-- The stage at which the compile of a unit begins. -/
def start (settings : Settings) (root : Path) : Stage :=
  match settings.sources.text root with
  | none => ⟨[], State.initial root settings.macros⟩
  | some text =>
    let file : SourceFile := ⟨root, text.toList⟩
    ⟨[.begin file],
      ((State.initial root settings.macros).addFile root (settings.sources.revision root)).begin
        file⟩

/-- A stage that the compile of a unit comes to. -/
def Reached (settings : Settings) (root : Path) (stage : Stage) : Prop :=
  ∃ steps, (next settings)^[steps] (start settings root) = stage

section Reached

variable {settings : Settings} {root : Path} {stage : Stage}

theorem reached_start (settings : Settings) (root : Path) : Reached settings root (start settings root) :=
  ⟨0, rfl⟩

theorem Reached.next (reached : Reached settings root stage) :
    Reached settings root (stage.next settings) := by
  obtain ⟨steps, rfl⟩ := reached
  exact ⟨steps + 1, Function.iterate_succ_apply' _ _ _⟩

/-- **What the first stage has and every step keeps**, every stage has that a compile comes to. -/
theorem Reached.keeps (reached : Reached settings root stage) (holds : Stage → Prop)
    (first : holds (start settings root))
    (step : ∀ stage, Reached settings root stage → holds stage → holds (stage.next settings)) :
    holds stage := by
  obtain ⟨steps, rfl⟩ := reached
  induction steps with
  | zero => exact first
  | succ steps ih =>
      rw [Function.iterate_succ_apply']
      exact step _ ⟨steps, rfl⟩ ih

end Reached

end Stage

/-! ## Where the steps lead -/

/-- Finitely many steps lead from one stage to the other. -/
def Leads (settings : Settings) (before after : Stage) : Prop :=
  ∃ steps, (Stage.next settings)^[steps] before = after

namespace Leads

variable {settings : Settings} {before middle after : Stage}

theorem refl (stage : Stage) : Leads settings stage stage := ⟨0, rfl⟩

theorem trans (first : Leads settings before middle) (second : Leads settings middle after) :
    Leads settings before after := by
  obtain ⟨steps, rfl⟩ := first
  obtain ⟨more, rfl⟩ := second
  exact ⟨more + steps, Function.iterate_add_apply _ _ _ _⟩

/-- One step, and then more. -/
theorem head (rest : Leads settings (before.next settings) after) : Leads settings before after :=
  trans ⟨1, rfl⟩ rest

end Leads

section Bodies

variable {settings : Settings} (outer : List OpenFile)

/-- **A body is walked to its end** if the uses inside of it are. -/
theorem leads_body {levels : Nat}
    (nested : ∀ (opened : OpenFile) (state : State) (site : Token) (name : String),
      opened.bodies.length + levels = expansionDepth →
      let walk := expand opened.file site levels name ⟨state, opened.look⟩
      Leads settings ⟨opened.use state site name :: outer, state⟩
        ⟨{ opened with look := walk.look } :: outer, walk.state⟩)
    (opened : OpenFile) (site : Token) (name : String) (others : List OpenBody)
    (room : others.length + 1 + levels = expansionDepth) (words : List Token) (walk : Walk) :
    let done := walkBody opened.file site name (expand opened.file site levels) words walk
    Leads settings
      ⟨{ opened with look := walk.look, bodies := ⟨site, name, words⟩ :: others } :: outer, walk.state⟩
      ⟨{ opened with look := done.look, bodies := others } :: outer, done.state⟩ := by
  induction words generalizing walk with
  | nil => exact .head (.refl _)
  | cons token rest ih =>
      dsimp only
      rw [walkBody]
      split
      case isTrue plain =>
        have passed := ih ⟨walk.state.inspect opened.file token rest walk.look, walk.look.push token⟩
        refine .head ?_
        simp only [Stage.next, OpenFile.stepBody, if_pos plain]
        exact passed
      case isFalse directive =>
        split
        case isTrue used =>
          refine .head ?_
          simp only [Stage.next, OpenFile.stepBody, if_neg directive, if_pos used]
          have expanded := nested
            { opened with look := walk.look, bodies := ⟨site, name, rest⟩ :: others } walk.state site
            token.text room
          exact expanded.trans (ih _)
        case isFalse unused =>
          split
          case isTrue unknown =>
            refine .head ?_
            simp only [Stage.next, OpenFile.stepBody, if_neg directive, if_neg unused, if_pos unknown]
            exact ih ⟨walk.state.find opened.file.path (opened.file.tokenRange site)
              (.unknownUseWithin token.text name), walk.look⟩
          case isFalse known =>
            refine .head ?_
            simp only [Stage.next, OpenFile.stepBody, if_neg directive, if_neg unused, if_neg known]
            exact ih walk

/-- **A use is expanded to the end.** The levels that are left are those that the open bodies leave. -/
theorem leads_use (levels : Nat) (opened : OpenFile) (state : State) (site : Token) (name : String)
    (room : opened.bodies.length + levels = expansionDepth) :
    let walk := expand opened.file site levels name ⟨state, opened.look⟩
    Leads settings ⟨opened.use state site name :: outer, state⟩
      ⟨{ opened with look := walk.look } :: outer, walk.state⟩ := by
  induction levels generalizing opened state site name with
  | zero =>
      have full : ¬opened.bodies.length < expansionDepth := Nat.not_lt.2 (Nat.le_of_eq room.symm)
      rw [OpenFile.use, expand]
      cases state.definitions[name]? with
      | none => exact .refl _
      | some definition =>
          dsimp only
          rw [if_neg full]
          exact .refl _
  | succ levels ih =>
      rw [OpenFile.use, expand]
      cases state.definitions[name]? with
      | none => exact .refl _
      | some definition =>
          have free : opened.bodies.length < expansionDepth :=
            Nat.lt_of_lt_of_eq (Nat.lt_add_of_pos_right (Nat.succ_pos levels)) room
          dsimp only
          rw [if_pos free]
          exact leads_body outer ih opened site name opened.bodies (by omega)
            (bodyTokens definition.body site) ⟨state, opened.look⟩

end Bodies

/-! ## Files -/

/-- Away from includes a step does not depend on what is around the file. -/
theorem step_eq_of_site {settings : Settings} {stack : List Path}
    {compile? : Option (SourceFile → State → State)} {file : SourceFile} {token : Token}
    {rest : List Token} {progress : Progress}
    (elsewhere : includeSite? progress file token rest = none) :
    progress.step settings [] none file token rest =
      progress.step settings stack compile? file token rest := by
  have same := Progress.withReads_step settings settings stack [] compile? none file token rest
    progress progress.reads rfl elsewhere
  have reads := Progress.reads_step settings stack compile? file token rest progress elsewhere
  rw [Progress.withReads_reads, ← reads, Progress.withReads_reads] at same
  exact same

/-- At a use the step is to expand it. -/
theorem step_of_use {settings : Settings} {stack : List Path}
    {compile? : Option (SourceFile → State → State)} {file : SourceFile} {token : Token}
    {rest : List Token} {progress : Progress}
    (used : token.kind = .directive ∧
      (Chain.isActive progress.chains && progress.walk.state.isObjectLike token.text) = true) :
    progress.step settings stack compile? file token rest =
      ({ progress with walk := expand file token expansionDepth token.text progress.walk }, 0) := by
  rw [Progress.step, if_pos used.1]
  exact if_pos used.2

section Files

variable {settings : Settings}

/-- What the walk through the rest of a file leaves, with room for so many further files. -/
def OpenFile.finish (settings : Settings) (room : Nat) (opened : OpenFile) (outer : List OpenFile)
    (state : State) : State :=
  let stack := opened.file.path :: outer.map (·.file.path)
  (walkTokens settings stack (compiler? settings room stack) opened.file opened.ahead
    (opened.progress state)).close opened.file

/-- A file that may still be opened is read to its end. -/
def ReadsFurther (settings : Settings) (room : Nat) (stack : List Path) : Prop :=
  ∀ compile, compiler? settings room stack = some compile →
    ∀ (outer : List OpenFile), outer.map (·.file.path) = stack →
      ∀ (inner : SourceFile) (state : State),
        Leads settings ⟨.begin inner :: outer, state.begin inner⟩ ⟨outer, compile inner state⟩

section Walk

variable {room : Nat} {outer : List OpenFile}

/-- **An include is followed to the end**, if further files are read to theirs. -/
theorem leads_include {opened : OpenFile} (count : outer.length + 1 + room = openFileLimit)
    (further : ReadsFurther settings room (opened.file.path :: outer.map (·.file.path)))
    (state : State) (name : String) (range : Range) :
    let stack := opened.file.path :: outer.map (·.file.path)
    Leads settings (Stage.openInclude settings opened outer state name range)
      ⟨opened :: outer, state.includeFile settings stack (compiler? settings room stack)
        opened.file name range⟩ := by
  intro stack
  have length : stack.length = outer.length + 1 := by
    rw [List.length_cons, List.length_map]
  rw [Stage.openInclude, State.includeFile]
  cases settings.sources.resolve name opened.file.path.directory with
  | none => exact .refl _
  | some target =>
      dsimp only
      split
      · exact .refl _
      · cases room with
        | zero =>
            rw [if_pos (show openFileLimit ≤ stack.length by omega)]
            exact .refl _
        | succ room =>
            rw [if_neg (show ¬openFileLimit ≤ stack.length by omega)]
            dsimp only [compiler?]
            cases settings.sources.text target with
            | none => exact .refl _
            | some text => exact further _ rfl (opened :: outer) rfl ⟨target, text.toList⟩ _

/-- **A file is walked to its end**, if further files are read to theirs. -/
theorem leads_walk (count : outer.length + 1 + room = openFileLimit) (opened : OpenFile)
    (further : ReadsFurther settings room (opened.file.path :: outer.map (·.file.path)))
    (free : opened.bodies = []) (state : State) :
    Leads settings ⟨opened :: outer, state⟩
      ⟨outer, opened.finish settings room outer state⟩ := by
  obtain ⟨file, ahead, look, chains, bodies⟩ := opened
  obtain rfl : bodies = [] := free
  change ReadsFurther settings room (file.path :: outer.map (·.file.path)) at further
  induction same : ahead.length using Nat.strongRecOn generalizing ahead look chains state with
  | ind size ih =>
      refine .head ?_
      rw [Stage.next]
      dsimp only
      cases ahead with
      | nil =>
          rw [Stage.stepFile, OpenFile.finish, walkTokens]
          exact .refl _
      | cons token rest =>
          have shorter (used : Nat) : (rest.drop used).length < size := by
            rw [← same, List.length_cons, List.length_drop]
            omega
          have finished (used : Nat) (after : Progress)
              (stepped : (Progress.mk ⟨state, look⟩ chains).step settings
                (file.path :: outer.map (·.file.path))
                (compiler? settings room (file.path :: outer.map (·.file.path))) file token rest =
                  (after, used)) :
              OpenFile.finish settings room ⟨file, token :: rest, look, chains, []⟩ outer state =
                OpenFile.finish settings room
                  ⟨file, rest.drop used, after.walk.look, after.chains, []⟩ outer
                  after.walk.state := by
            rw [OpenFile.finish, walkTokens, OpenFile.progress, stepped]
            rfl
          rw [Stage.stepFile]
          dsimp only [OpenFile.progress]
          split
          case isTrue expands =>
            have used := @leads_use settings outer expansionDepth ⟨file, rest, look, chains, []⟩ state
              token token.text (Nat.zero_add _)
            rw [finished 0 _ (step_of_use expands)]
            exact used.trans (ih _ (shorter 0) _ _ _ _ rfl)
          case isFalse unused =>
            cases site : includeSite? (Progress.mk ⟨state, look⟩ chains) file token rest with
            | some found =>
                obtain ⟨name, range⟩ := found
                rw [finished _ _ (Progress.step_of_site settings _ _ file token rest site)]
                exact (leads_include count further _ _ _).trans (ih _ (shorter _) _ _ _ _ rfl)
            | none =>
                have elsewhere : _ = (Progress.mk ⟨state, look⟩ chains).step settings
                    (file.path :: outer.map (·.file.path))
                    (compiler? settings room (file.path :: outer.map (·.file.path))) file token rest :=
                  step_eq_of_site site
                rw [finished _ _ (elsewhere.symm.trans (Prod.eta _).symm)]
                exact ih _ (shorter _) _ _ _ _ rfl

end Walk

/-- **A file is read to its end.** -/
theorem leads_file (room : Nat) (opened : OpenFile) (outer : List OpenFile)
    (count : outer.length + 1 + room = openFileLimit) (free : opened.bodies = []) (state : State) :
    Leads settings ⟨opened :: outer, state⟩ ⟨outer, opened.finish settings room outer state⟩ := by
  induction room generalizing opened outer state with
  | zero => exact leads_walk count opened (fun _ known => by cases known) free state
  | succ room ih =>
      refine leads_walk count opened ?_ free state
      rintro compile ⟨⟩ further same inner begun
      have length := congrArg List.length same
      rw [List.length_map, List.length_cons, List.length_map] at length
      have read := ih (.begin inner) further (by omega) rfl (begun.begin inner)
      rw [OpenFile.finish, same] at read
      rw [compileFile_eq]
      exact read

end Files

/-! ## The end of the steps -/

/-- What the compile of a unit has found when it comes to the stage `end`. -/
theorem leads_unit (settings : Settings) (root : Path) : ∃ state,
    Leads settings (Stage.start settings root) ⟨[], state⟩ ∧
      state.finish.result = compileUnit settings root := by
  rw [Stage.start, compileUnit]
  cases settings.sources.text root with
  | none => exact ⟨_, .refl _, rfl⟩
  | some text =>
      refine ⟨_, leads_file (openFileLimit - 1) _ [] rfl rfl _, ?_⟩
      dsimp only
      rw [OpenFile.finish, compileFile_eq]
      rfl

/-! ## The files that are open -/

theorem OpenFile.file_use (opened : OpenFile) (state : State) (site : Token) (name : String) :
    (opened.use state site name).file = opened.file := by
  rw [use]
  split
  · rfl
  · split <;> rfl

theorem OpenFile.file_stepBody (opened : OpenFile) (state : State) (body : OpenBody)
    (others : List OpenBody) : (opened.stepBody state body others).1.file = opened.file := by
  rw [stepBody]
  split
  · rfl
  · split
    · rfl
    · split
      · exact file_use _ _ _ _
      · split <;> rfl

namespace Stage

variable {settings : Settings} {root : Path}

/-- A file is opened only if it is not open yet and another one may be. -/
theorem stack_openInclude (opened : OpenFile) (outer : List OpenFile) (state : State) (name : String)
    (range : Range) :
    let before := opened.file.path :: outer.map (·.file.path)
    let after := (openInclude settings opened outer state name range).stack
    after = before ∨ ∃ target, after = target :: before ∧ before.contains target = false ∧
      before.length < openFileLimit := by
  intro before after
  rw [show after = stack _ from rfl, openInclude]
  cases settings.sources.resolve name opened.file.path.directory with
  | none => exact .inl rfl
  | some target =>
      dsimp only
      split
      case isTrue within => exact .inl rfl
      case isFalse apart =>
        split
        case isTrue full => exact .inl rfl
        case isFalse free =>
          cases settings.sources.text target with
          | none => exact .inl rfl
          | some text =>
              exact .inr ⟨target, rfl, (Bool.not_eq_true _).mp apart, Nat.lt_of_not_le free⟩

/-- **A step closes the innermost file, opens one inside of it, or leaves the open files.** -/
theorem stack_next (settings : Settings) (stage : Stage) :
    (stage.next settings).stack = stage.stack ∨ (stage.next settings).stack = stage.stack.tail ∨
      ∃ target, (stage.next settings).stack = target :: stage.stack ∧
        stage.stack.contains target = false ∧ stage.stack.length < openFileLimit := by
  obtain ⟨files, state⟩ := stage
  cases files with
  | nil => exact .inl rfl
  | cons opened outer =>
      obtain ⟨file, ahead, look, chains, bodies⟩ := opened
      have kept {opened : OpenFile} (same : opened.file = file) :
          (opened :: outer).map (·.file.path) = file.path :: outer.map (·.file.path) := by
        rw [List.map_cons, same]
      rw [next]
      cases bodies with
      | cons body others => exact .inl (kept (OpenFile.file_stepBody _ _ _ _))
      | nil =>
          dsimp only
          rw [stepFile]
          cases ahead with
          | nil => exact .inr (.inl rfl)
          | cons token rest =>
              dsimp only
              split
              case isTrue expands => exact .inl (kept (OpenFile.file_use _ _ _ _))
              case isFalse unused =>
                split
                case h_1 name range site => exact (stack_openInclude _ _ _ _ _).imp_right .inr
                case h_2 elsewhere => exact .inl rfl

/-- **The open files** are different ones, and never too many. -/
theorem Reached.stack {stage : Stage} (reached : Reached settings root stage) :
    stage.stack.Pairwise (fun a b => (a == b) = false) ∧ stage.stack.length ≤ openFileLimit := by
  apply reached.keeps fun stage => stage.stack.Pairwise (fun a b => (a == b) = false) ∧
    stage.stack.length ≤ openFileLimit
  · rw [start]
    cases settings.sources.text root with
    | none => exact ⟨.nil, Nat.zero_le _⟩
    | some text => exact ⟨List.pairwise_singleton _ _, Nat.succ_pos 31⟩
  · rintro stage - ⟨apart, few⟩
    rcases stack_next settings stage with same | popped | ⟨target, pushed, new, free⟩
    · rw [same]
      exact ⟨apart, few⟩
    · rw [popped]
      exact ⟨apart.sublist (List.tail_sublist _), by rw [List.length_tail]; omega⟩
    · rw [pushed]
      refine ⟨List.pairwise_cons.2 ⟨fun path member => ?_, apart⟩, free⟩
      rw [List.contains_eq_any_beq, List.any_eq_false] at new
      exact (Bool.not_eq_true _).mp (new path member)

/-! ## Includes that are not followed -/

/-- The include that the next step is to follow: its name, the place of that name, and the file it
stands for. -/
def includeAhead? (settings : Settings) (stage : Stage) : Option (String × Range × Path) :=
  match stage.files with
  | ⟨file, token :: rest, look, chains, []⟩ :: _ =>
    (includeSite? ⟨⟨stage.state, look⟩, chains⟩ file token rest).bind fun (name, range) =>
      (settings.sources.resolve name file.path.directory).map fun target => (name, range, target)
  | _ => none

/-- **An include of an open file, or one too many, is reported and passed over.** Nothing is read,
and nothing else is noted. -/
theorem next_of_refused {stage : Stage} {name : String} {range : Range} {target : Path}
    (ahead : stage.includeAhead? settings = some (name, range, target))
    (refused : stage.stack.contains target = true ∨ openFileLimit ≤ stage.stack.length) :
    ∃ diagnostic, diagnostic.name = .recursiveInclude ∧ diagnostic.range = range ∧
      stage.stack.head? = some diagnostic.path ∧
      (stage.next settings).state = stage.state.report diagnostic ∧
      (stage.next settings).stack = stage.stack := by
  obtain ⟨files, state⟩ := stage
  rw [includeAhead?] at ahead
  split at ahead
  case h_2 => cases ahead
  case h_1 file token rest look chains outer here =>
    obtain rfl : files = _ := here
    obtain ⟨⟨_, _⟩, site, found⟩ := Option.bind_eq_some_iff.1 ahead
    obtain ⟨_, resolved, same⟩ := Option.map_eq_some_iff.1 found
    obtain ⟨rfl, rfl, rfl⟩ := same
    -- An include directive is no use of a macro.
    have unused : ¬(token.kind = .directive ∧
        (Chain.isActive chains && state.isObjectLike token.text) = true) := by
      rw [includeSite?] at site
      split at site
      case isTrue here =>
        rw [here.2.1, isObjectLike_include, Bool.and_false]
        exact fun used => Bool.false_ne_true used.2
      case isFalse => cases site
    have stepped : next settings ⟨⟨file, token :: rest, look, chains, []⟩ :: outer, state⟩ =
        openInclude settings ⟨file, rest.drop (lineLength file token rest), look, chains, []⟩ outer
          state name range := by
      rw [next]
      dsimp only
      rw [stepFile]
      dsimp only [OpenFile.progress]
      rw [if_neg unused, site]
    rw [stepped, openInclude]
    dsimp only
    rw [resolved]
    dsimp only
    split
    case isTrue within => exact ⟨_, rfl, rfl, rfl, rfl, rfl⟩
    case isFalse apart =>
      have full : openFileLimit ≤ (file.path :: outer.map (·.file.path)).length :=
        refused.resolve_left apart
      rw [if_pos full]
      exact ⟨_, rfl, rfl, rfl, rfl, rfl⟩

end Stage

end Unit

/-- **The compile of a unit ends**, whatever its files include and its macros stand for. No file is
opened within itself and never more than the limit are open; an include that would do so is
reported and passed over. -/
theorem ends_compileUnit (settings : Unit.Settings) (root : Path) :
    (∃ steps state,
      (Unit.Stage.next settings)^[steps] (Unit.Stage.start settings root) = ⟨[], state⟩ ∧
        state.finish.result = compileUnit settings root) ∧
    ∀ stage, Unit.Stage.Reached settings root stage →
      stage.stack.Pairwise (fun a b => (a == b) = false) ∧
      stage.stack.length ≤ Unit.openFileLimit ∧
      ∀ name range target, stage.includeAhead? settings = some (name, range, target) →
        stage.stack.contains target = true ∨ Unit.openFileLimit ≤ stage.stack.length →
        ∃ diagnostic, diagnostic.name = .recursiveInclude ∧ diagnostic.range = range ∧
          stage.stack.head? = some diagnostic.path ∧
          (stage.next settings).state = stage.state.report diagnostic ∧
          (stage.next settings).stack = stage.stack := by
  obtain ⟨state, ⟨steps, leads⟩, compiled⟩ := Unit.leads_unit settings root
  refine ⟨⟨steps, state, leads, compiled⟩, fun stage reached => ?_⟩
  exact ⟨reached.stack.1, reached.stack.2,
    fun _ _ _ ahead refused => Unit.Stage.next_of_refused ahead refused⟩

/-- A file that includes itself. -/
theorem ends_compileUnit_of_self :
    let root : Path := .ofString "/p/top.sv"
    let settings : Unit.Settings :=
      ⟨⟨fun _ => some "`include \"top.sv\"\n", fun _ _ => some root, fun _ => none⟩, .empty, .warning⟩
    let stage := Unit.Stage.start settings root
    let range : Range := ⟨⟨0, 9⟩, ⟨0, 17⟩⟩
    stage.includeAhead? settings = some ("top.sv", range, root) ∧
      stage.stack.contains root = true ∧
      ∃ diagnostic, diagnostic.name = .recursiveInclude ∧ diagnostic.range = range ∧
        stage.stack.head? = some diagnostic.path ∧
        (stage.next settings).state = stage.state.report diagnostic ∧
        (stage.next settings).stack = stage.stack := by
  intro root settings stage range
  have read : (stage.includeAhead? settings).map (fun site => (site.1, site.2.1, site.2.2.segments)) =
      some ("top.sv", range, root.segments) := by decide +kernel
  have ahead : stage.includeAhead? settings = some ("top.sv", range, root) := by
    obtain ⟨⟨name, place, target⟩, ahead, same⟩ := Option.map_eq_some_iff.1 read
    obtain ⟨rfl, same⟩ := Prod.mk.inj same
    obtain ⟨rfl, same⟩ := Prod.mk.inj same
    rw [ahead, show target = root from congrArg Path.mk same]
  have within : stage.stack.contains root = true := by decide +kernel
  exact ⟨ahead, within, ((ends_compileUnit settings root).2 stage
    (Unit.Stage.reached_start settings root)).2.2 _ _ _ ahead (.inl within)⟩

end SvServer
