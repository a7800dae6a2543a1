import SvServer.Proofs.Unit.Checked
import SvServer.Proofs.Unit.Reads

/-!
# Files and units within bounds

What is compiled with an eye on the bounds, from the bodies of macros on to whole units: the lexing of
each text, the lines that directives take, and the blocks that are open at the end. The cuts lie at the
ends of tokens and of logical lines, which are boundaries of the text; so none of them fails.
-/

namespace SvServer

open Hdl

namespace Unit

theorem State.Closable.define {state : State} (closable : state.Closable) (settings : Settings)
    {file : SourceFile} {token : Token} {rest : List Token} :
    (state.define settings file token rest).Closable := by
  rcases state.define_cases settings file token rest with
    ⟨-, same⟩ | ⟨name, reported, definitions, -, rfl | rfl, same⟩ <;> rw [same] <;> exact closable

namespace Checked

variable {file : SourceFile} {token : Token} {rest : List Token}

/-! ## Expansion -/

def bodyTokens (body : String) (site : Token) : Option (List Token) :=
  (Bytewise.lex? body.toList).map fun lexed =>
    lexed.1.map fun token => { token with start := site.start, stop := site.stop }

theorem bodyTokens_eq_some (body : String) (site : Token) :
    bodyTokens body site = some (Unit.bodyTokens body site) := by
  rw [bodyTokens, lex?_eq_some]
  rfl

def walkBody (file : SourceFile) (site : Token) (name : String)
    (expand : (name : String) → Walk → Option Walk) : List Token → Walk → Option Walk
  | [], walk => some walk
  | token :: rest, walk =>
    if token.kind ≠ .directive then
      (inspect walk.state file token rest walk.look).bind fun state =>
        walkBody file site name expand rest ⟨state, walk.look.push token⟩
    else if walk.state.isObjectLike token.text then
      (expand token.text walk).bind fun walk => walkBody file site name expand rest walk
    else if !walk.state.definitions.contains token.text && !isDirectiveName token.text then
      (tokenRange file site).bind fun range =>
        let finding := Finding.unknownUseWithin token.text name
        walkBody file site name expand rest
          { walk with state := walk.state.find file.path range finding }
    else walkBody file site name expand rest walk

/-- A body is walked within bounds if the uses inside of it are. -/
theorem walkBody_eq_some (site : Token) (name : String)
    {checked : String → Walk → Option Walk} {expand : String → Walk → Walk}
    (expands : ∀ name walk, walk.state.Closable →
      checked name walk = some (expand name walk) ∧ (expand name walk).state.Closable)
    (words : List Token) (walk : Walk) (closable : walk.state.Closable) :
    walkBody file site name checked words walk = some (Unit.walkBody file site name expand words walk) ∧
      (Unit.walkBody file site name expand words walk).state.Closable := by
  induction words generalizing walk with
  | nil => exact ⟨rfl, closable⟩
  | cons token rest ih =>
      rw [walkBody, Unit.walkBody]
      split
      · rw [inspect_eq_some closable]
        exact ih _ closable.inspect
      · split
        · obtain ⟨used, closable'⟩ := expands token.text walk closable
          rw [used]
          exact ih _ closable'
        · split
          · rw [tokenRange_eq_some]
            exact ih ⟨_, _⟩ closable
          · exact ih _ closable

def expand (file : SourceFile) (site : Token) :
    (levels : Nat) → (name : String) → Walk → Option Walk
  | 0, _, walk => some walk
  | levels + 1, name, walk =>
    match walk.state.definitions[name]? with
    | none => some walk
    | some definition =>
      (bodyTokens definition.body site).bind fun words =>
        walkBody file site name (expand file site levels) words walk

/-- **A use is expanded within bounds.** -/
theorem expand_eq_some (site : Token) (levels : Nat) (name : String) (walk : Walk)
    (closable : walk.state.Closable) :
    expand file site levels name walk = some (Unit.expand file site levels name walk) ∧
      (Unit.expand file site levels name walk).state.Closable := by
  induction levels generalizing name walk with
  | zero => exact ⟨rfl, closable⟩
  | succ levels ih =>
      rw [expand, Unit.expand]
      cases walk.state.definitions[name]? with
      | none => exact ⟨rfl, closable⟩
      | some definition =>
          dsimp only
          rw [bodyTokens_eq_some]
          exact walkBody_eq_some site name ih _ walk closable

/-! ## Directives -/

def lineEnd (file : SourceFile) (directive : Token) : Option Nat :=
  Bytewise.lineEnd? (Text.bytes file.text) directive.stop

theorem lineEnd_eq_some (member : token ∈ tokens file.text) :
    lineEnd file token = some (file.lineEnd token) :=
  Bytewise.lineEnd?_eq_some (isStretch_token member).stop

def operand (file : SourceFile) (directive : Token) (rest : List Token) : Option (Option Token) := do
  let lineEnd ← lineEnd file directive
  return rest.head?.filter fun token => token.start < lineEnd && token.kind == .identifier

theorem operand_eq_some (member : token ∈ tokens file.text) (rest : List Token) :
    operand file token rest = some (operand? file token rest) := by
  rw [operand, lineEnd_eq_some member]
  rfl

def lineLength (file : SourceFile) (directive : Token) (rest : List Token) : Option Nat := do
  let lineEnd ← lineEnd file directive
  return (rest.takeWhile fun token => token.start < lineEnd).length

theorem lineLength_eq_some (member : token ∈ tokens file.text) (rest : List Token) :
    lineLength file token rest = some (Unit.lineLength file token rest) := by
  rw [lineLength, lineEnd_eq_some member]
  rfl

def includeName (file : SourceFile) (directive : Token) (rest : List Token) :
    Option (Option (String × Range)) := do
  let lineEnd ← lineEnd file directive
  match rest.head?.filter fun token => token.start < lineEnd with
  | none => return none
  | some token =>
    if token.kind == .string && token.text ≠ "" then
      return some (token.text, ← tokenRange file token)
    else if token.text = "<" then
      let after ← Text.slice? file.text token.stop lineEnd
      let inner := after.takeWhile (· ≠ '>')
      if inner.isEmpty || inner.length = after.length then return none
      else
        let stop := token.stop + Text.byteLength inner
        let name ← Text.slice? file.text token.stop stop
        return some (String.ofList (Text.trimChars name), ← range file token.start (stop + 1))
    else return none

/-- **The name of an include is cut out within bounds.** -/
theorem includeName_eq_some (member : token ∈ tokens file.text)
    (ahead : ∀ next ∈ rest, next ∈ tokens file.text) :
    includeName file token rest = some (includeName? file token rest) := by
  rw [includeName, includeName?, lineEnd_eq_some member]
  cases here : rest.head?.filter fun next => decide (next.start < file.lineEnd token) with
  | none => simp [here]
  | some next =>
      obtain ⟨first, begins⟩ := Option.filter_eq_some_iff.1 here
      have listed := ahead next (List.mem_of_mem_head? first)
      simp only [Option.bind_eq_bind, Option.bind_some, Option.pure_def, here]
      split
      case isTrue => rw [tokenRange_eq_some, Option.bind_some]
      case isFalse bare =>
        split
        case isFalse => rfl
        case isTrue angle =>
          have line : Text.IsStretch file.text next.stop (file.lineEnd token) := by
            refine isStretch_line listed (.inr ⟨fun string => bare ?_, angle⟩)
              (of_decide_eq_true begins)
            rw [string, angle]
            decide
          rw [Text.slice?_eq_some line, Option.bind_some]
          split
          case isTrue => rfl
          case isFalse closed =>
            rw [Bool.or_eq_true, not_or, decide_eq_true_eq] at closed
            obtain ⟨inner, -, same⟩ := isStretch_bracketed line rfl closed.2
            rw [Text.slice?_eq_some inner, same, Option.bind_some, range_eq_some, Option.bind_some]

def includeFile (state : State) (settings : Settings) (stack : List Path)
    (compile? : Option (SourceFile → State → Option State)) (file : SourceFile) (name : String)
    (range : Range) : Option State :=
  match settings.sources.resolve name file.path.directory with
  | none => some ((state.addMissing name).find file.path range (.includeNotFound name))
  | some target =>
    if stack.contains target then some (state.find file.path range (.includesItself name))
    else match compile? with
      | none => some (state.find file.path range (.includesTooDeep openFileLimit))
      | some compile =>
        match settings.sources.text target with
        | some text => compile ⟨target, text.toList⟩
            (state.addFile target (settings.sources.revision target))
        | none => some ((state.addMissing name).find file.path range (.includeUnreadable name))

/-- A further file is compiled within bounds, if one may be opened. -/
def Follows : Option (SourceFile → State → Option State) → Option (SourceFile → State → State) → Prop :=
  Option.Rel fun checked compile => ∀ file state, state.Closable →
    checked file state = some (compile file state) ∧ (compile file state).Closable

theorem includeFile_eq_some (settings : Settings) (stack : List Path)
    {checked : Option (SourceFile → State → Option State)}
    {compile? : Option (SourceFile → State → State)} (follows : Follows checked compile?)
    {state : State} (closable : state.Closable) (name : String) (range : Range) :
    includeFile state settings stack checked file name range =
        some (state.includeFile settings stack compile? file name range) ∧
      (state.includeFile settings stack compile? file name range).Closable := by
  rw [includeFile, State.includeFile]
  cases settings.sources.resolve name file.path.directory with
  | none => exact ⟨rfl, closable⟩
  | some target =>
      dsimp only
      split
      · exact ⟨rfl, closable⟩
      · cases follows with
        | none => exact ⟨rfl, closable⟩
        | some follows =>
            cases settings.sources.text target with
            | none => exact ⟨rfl, closable⟩
            | some text => exact follows _ _ closable

def define (state : State) (settings : Settings) (file : SourceFile) (directive : Token)
    (rest : List Token) : Option State := do
  match ← operand file directive rest with
  | none =>
    return state.find file.path (← tokenRange file directive) (.expectedMacroName directive.text)
  | some name =>
    let line ← Text.slice? file.text name.stop (← lineEnd file directive)
    let behind ← Text.slice? file.text name.stop (Text.bytes file.text).length
    let body := storedBody line
    let functionLike := behind.head? == some '('
    let clashes := state.definitions[name.text]?.any fun known =>
      !known.fromProject && known.body ≠ body
    let range ← tokenRange file name
    let reported :=
      if clashes then
        state.report { (Finding.redefined name.text).located file.path range with
          severity := settings.redefinedSeverity }
      else state
    return { reported with
      definitions := reported.definitions.insert name.text ⟨body, functionLike, false⟩ }

/-- What stands behind a boundary is what is cut out from there to the end of the text. -/
theorem slice?_to_end {text : List Char} {start : Nat} (isBoundary : Text.IsBoundary text start) :
    Text.slice? text start (Text.bytes text).length = some (Text.dropBytes text start) := by
  obtain ⟨before, behind, rfl, rfl⟩ := isBoundary
  have cut := Text.slice?_append before behind []
  rw [Text.dropBytes_all]
  rwa [List.append_nil, ← Text.byteLength_append, ← Text.length_bytes (before ++ behind)] at cut

/-- **The body of a definition is cut out within bounds.** -/
theorem define_eq_some (settings : Settings) (state : State) (member : token ∈ tokens file.text)
    (ahead : ∀ next ∈ rest, next ∈ tokens file.text) :
    define state settings file token rest = some (state.define settings file token rest) := by
  rw [define, State.define, operand_eq_some member]
  cases found : operand? file token rest with
  | none =>
      rw [tokenRange_eq_some]
      rfl
  | some name =>
      obtain ⟨listed, word, begins⟩ := mem_of_operand? found
      have here := ahead name listed
      simp only [Option.bind_eq_bind, Option.bind_some, Option.pure_def, lineEnd_eq_some member,
        Text.slice?_eq_some (isStretch_line here (.inl word) begins),
        slice?_to_end (isStretch_token here).stop, tokenRange_eq_some]
      cases state.definitions[name.text]? <;> rfl

def conditional (progress : Progress) (file : SourceFile) (directive : Token)
    (rest : List Token) : Option (Option (Progress × Nat)) := do
  let operand ← operand file directive rest
  let range ← tokenRange file directive
  let defined := operand.any fun name => progress.walk.state.definitions.contains name.text
  let used := if operand.isSome then 1 else 0
  let branch (step : List Chain × Option Finding) : Progress :=
    { chains := step.1
      walk := { progress.walk with
        state := progress.walk.state.find? file.path range step.2 } }
  let opened (condition : Bool) : Progress × Nat :=
    let finding := if operand.isNone && Chain.isActive progress.chains then
        some (.expectedMacroName directive.text)
      else none
    (branch (Chain.openChain progress.chains condition range, finding), used)
  return match directive.text with
  | "ifdef" => some (opened defined)
  | "ifndef" => some (opened (!defined))
  | "elsif" => some (branch (Chain.elsifBranch progress.chains defined), used)
  | "else" => some (branch (Chain.elseBranch progress.chains), 0)
  | "endif" => some (branch (Chain.closeChain progress.chains), 0)
  | _ => none

theorem conditional_eq_some (progress : Progress) (member : token ∈ tokens file.text)
    (rest : List Token) :
    conditional progress file token rest = some (progress.conditional? file token rest) := by
  rw [conditional, Progress.conditional?, operand_eq_some member, tokenRange_eq_some]
  rfl

def directive (state : State) (settings : Settings) (stack : List Path)
    (compile? : Option (SourceFile → State → Option State)) (file : SourceFile) (directive : Token)
    (rest : List Token) : Option (State × Nat) := do
  let line ← lineLength file directive rest
  let range ← tokenRange file directive
  match directive.text with
  | "define" => return (← define state settings file directive rest, line)
  | "undef" =>
    match ← operand file directive rest with
    | some name => return ({ state with definitions := state.definitions.erase name.text }, line)
    | none => return (state.find file.path range (.expectedMacroName directive.text), line)
  | "undefineall" => return ({ state with definitions := ∅ }, 0)
  | "include" =>
    match ← includeName file directive rest with
    | some (name, nameRange) =>
      return (← includeFile state settings stack compile? file name nameRange, line)
    | none => return (state.find file.path range .expectedIncludeName, line)
  | name =>
    if lineDirectives.contains name then return (state, line)
    else if plainDirectives.contains name || state.definitions.contains name then return (state, 0)
    else return (state.find file.path range (.unknownDirective name), 0)

/-- A directive of another name only skips its line, if it takes one, and is reported if no one knows
it. -/
theorem directive_of_other (settings : Settings) (stack : List Path)
    (compile? : Option (SourceFile → State → State)) (state : State) (file : SourceFile)
    {token : Token} (rest : List Token) (define : token.text ≠ "define")
    (undef : token.text ≠ "undef") (all : token.text ≠ "undefineall")
    (including : token.text ≠ "include") :
    state.directive settings stack compile? file token rest =
      if lineDirectives.contains token.text then (state, Unit.lineLength file token rest)
      else if plainDirectives.contains token.text || state.definitions.contains token.text then
        (state, 0)
      else (state.find file.path (file.tokenRange token) (.unknownDirective token.text), 0) := by
  rw [State.directive]
  split
  case h_1 same => exact absurd same define
  case h_2 same => exact absurd same undef
  case h_3 same => exact absurd same all
  case h_4 same => exact absurd same including
  case h_5 => rfl

theorem directive_eq_some (settings : Settings) (stack : List Path)
    {checked : Option (SourceFile → State → Option State)}
    {compile? : Option (SourceFile → State → State)} (follows : Follows checked compile?)
    {state : State} (closable : state.Closable) (member : token ∈ tokens file.text)
    (ahead : ∀ next ∈ rest, next ∈ tokens file.text) :
    directive state settings stack checked file token rest =
        some (state.directive settings stack compile? file token rest) ∧
      (state.directive settings stack compile? file token rest).1.Closable := by
  rw [directive, lineLength_eq_some member, tokenRange_eq_some,
    define_eq_some settings state member ahead, operand_eq_some member,
    includeName_eq_some member ahead]
  simp only [Option.bind_eq_bind, Option.bind_some, Option.pure_def]
  split
  case h_1 define =>
    rw [State.directive, define]
    exact ⟨rfl, closable.define settings⟩
  case h_2 undef =>
    rw [State.directive, undef]
    cases operand? file token rest with
    | none => exact ⟨rfl, closable⟩
    | some name => exact ⟨rfl, closable⟩
  case h_3 all =>
    rw [State.directive, all]
    exact ⟨rfl, closable⟩
  case h_4 including =>
    rw [State.directive, including]
    cases includeName? file token rest with
    | none => exact ⟨rfl, closable⟩
    | some found =>
        obtain ⟨name, range⟩ := found
        obtain ⟨included, closable'⟩ := includeFile_eq_some settings stack follows closable name range
        dsimp only
        rw [included]
        exact ⟨rfl, closable'⟩
  case h_5 define undef all including =>
    rw [directive_of_other settings stack compile? state file rest define undef all including]
    split
    · exact ⟨rfl, closable⟩
    · split
      · exact ⟨rfl, closable⟩
      · exact ⟨rfl, closable⟩

/-! ## Files and units -/

def step (progress : Progress) (settings : Settings) (stack : List Path)
    (compile? : Option (SourceFile → State → Option State)) (file : SourceFile) (token : Token)
    (rest : List Token) : Option (Progress × Nat) :=
  let walk := progress.walk
  let active := Chain.isActive progress.chains
  if token.kind = .directive then
    if active && walk.state.isObjectLike token.text then
      (expand file token expansionDepth token.text walk).map fun walk =>
        ({ progress with walk := walk }, 0)
    else do
      match ← conditional progress file token rest with
      | some after => return after
      | none =>
        if active then
          let (state, used) ← directive walk.state settings stack compile? file token rest
          return ({ progress with walk := { walk with state := state } }, used)
        else return (progress, 0)
  else if active then
    (inspect walk.state file token rest walk.look).map fun state =>
      ({ progress with walk := ⟨state, walk.look.push token⟩ }, 0)
  else some (progress, 0)

theorem closable_conditional? {progress : Progress} (closable : progress.walk.state.Closable)
    {done : Progress × Nat} (acted : progress.conditional? file token rest = some done) :
    done.1.walk.state.Closable := by
  have branch (step : List Chain × Option Finding) :
      (progress.afterBranch file token step).walk.state.Closable := by
    obtain ⟨chains, finding⟩ := step
    cases finding <;> exact closable
  rw [Progress.conditional?] at acted
  dsimp only at acted
  split at acted
  all_goals first
    | (rw [← Option.some.inj acted]; exact branch _)
    | cases acted

/-- **A step through a file keeps within bounds.** -/
theorem step_eq_some (settings : Settings) (stack : List Path)
    {checked : Option (SourceFile → State → Option State)}
    {compile? : Option (SourceFile → State → State)} (follows : Follows checked compile?)
    {progress : Progress} (closable : progress.walk.state.Closable)
    (member : token ∈ tokens file.text) (ahead : ∀ next ∈ rest, next ∈ tokens file.text) :
    step progress settings stack checked file token rest =
        some (progress.step settings stack compile? file token rest) ∧
      (progress.step settings stack compile? file token rest).1.walk.state.Closable := by
  rw [step, Progress.step]
  dsimp only
  split
  case isTrue =>
    split
    case isTrue =>
      obtain ⟨expanded, closable'⟩ :=
        expand_eq_some token expansionDepth token.text progress.walk closable
      rw [expanded]
      exact ⟨rfl, closable'⟩
    case isFalse =>
      rw [conditional_eq_some progress member]
      cases acted : progress.conditional? file token rest with
      | some done => exact ⟨rfl, closable_conditional? closable acted⟩
      | none =>
          dsimp only
          split
          · obtain ⟨done, closable'⟩ := directive_eq_some settings stack follows closable member ahead
            rw [done]
            exact ⟨rfl, closable'⟩
          · exact ⟨rfl, closable⟩
  case isFalse =>
    split
    case isTrue =>
      rw [inspect_eq_some closable]
      exact ⟨rfl, closable.inspect⟩
    case isFalse => exact ⟨rfl, closable⟩

def walkTokens (settings : Settings) (stack : List Path)
    (compile? : Option (SourceFile → State → Option State)) (file : SourceFile) :
    List Token → Progress → Option Progress
  | [], progress => some progress
  | token :: rest, progress =>
    (step progress settings stack compile? file token rest).bind fun (after, used) =>
      walkTokens settings stack compile? file (rest.drop used) after
termination_by tokens => tokens.length
decreasing_by simp only [List.length_drop, List.length_cons]; omega

theorem walkTokens_eq_some (settings : Settings) (stack : List Path)
    {checked : Option (SourceFile → State → Option State)}
    {compile? : Option (SourceFile → State → State)} (follows : Follows checked compile?)
    (words : List Token) (listed : ∀ word ∈ words, word ∈ tokens file.text) (progress : Progress)
    (closable : progress.walk.state.Closable) :
    walkTokens settings stack checked file words progress =
        some (Unit.walkTokens settings stack compile? file words progress) ∧
      (Unit.walkTokens settings stack compile? file words progress).walk.state.Closable := by
  induction words, progress using Unit.walkTokens.induct settings stack compile? file with
  | case1 progress =>
      rw [walkTokens, Unit.walkTokens]
      exact ⟨rfl, closable⟩
  | case2 token rest progress after used stepped ih =>
      obtain ⟨here, ahead⟩ := List.forall_mem_cons.1 listed
      obtain ⟨done, closable'⟩ := step_eq_some settings stack follows closable here ahead
      rw [stepped] at done closable'
      rw [walkTokens, Unit.walkTokens, done, stepped]
      exact ih (fun next member => ahead next (List.mem_of_mem_drop member)) closable'

def begin (state : State) (file : SourceFile) (errors : List LexicalError) : Option State :=
  errors.foldlM (fun state error => do
    return state.find file.path (← range file error.start error.stop) (lexicalFinding error.kind)) state

theorem begin_eq_some (state : State) (file : SourceFile) :
    begin state file (lexicalErrors file.text) = some (state.begin file) := by
  refine foldlM_eq_some (fun error _ state => ?_) state
  rw [range_eq_some]
  rfl

/-- Reads one file, with a way to compile further ones. -/
def readFile (settings : Settings) (stack : List Path)
    (compile? : Option (SourceFile → State → Option State)) (file : SourceFile) (state : State) :
    Option State := do
  let (tokens, errors) ← Bytewise.lex? file.text
  let begun ← begin state file errors
  let done ← walkTokens settings stack compile? file tokens ⟨⟨begun, .start⟩, []⟩
  return done.close file

def compileFile (settings : Settings) :
    (room : Nat) → (stack : List Path) → SourceFile → State → Option State
  | 0, stack, file, state => readFile settings (file.path :: stack) none file state
  | room + 1, stack, file, state =>
    let around := file.path :: stack
    readFile settings around (some (compileFile settings room around)) file state

theorem closable_foldl_find {α : Type} {state : State} (closable : state.Closable) (list : List α)
    (path : Path) (range : α → Range) (finding : α → Finding) :
    (list.foldl (fun state a => state.find path (range a) (finding a)) state).Closable := by
  induction list generalizing state with
  | nil => exact closable
  | cons first rest ih =>
      have found : (state.find path (range first) (finding first)).Closable := closable
      exact ih found

theorem readFile_eq_some (settings : Settings) (room : Nat) (stack : List Path) (file : SourceFile)
    {checked : Option (SourceFile → State → Option State)}
    (follows : Follows checked (compiler? settings room (file.path :: stack))) {state : State}
    (closable : state.Closable) :
    readFile settings (file.path :: stack) checked file state =
        some (Unit.compileFile settings room stack file state) ∧
      (Unit.compileFile settings room stack file state).Closable := by
  have begun : (state.begin file).Closable := closable_foldl_find closable _ _ _ _
  obtain ⟨walked, closable'⟩ := walkTokens_eq_some settings (file.path :: stack) follows
    (tokens file.text) (fun _ member => member) ⟨⟨state.begin file, .start⟩, []⟩ begun
  rw [compileFile_eq, readFile, lex?_eq_some]
  simp only [begin_eq_some, Option.bind_eq_bind, Option.bind_some, Option.pure_def]
  rw [walked]
  exact ⟨rfl, closable_foldl_find closable' _ _ _ _⟩

/-- **A file is compiled within bounds**, with all that it includes. -/
theorem compileFile_eq_some (settings : Settings) (room : Nat) (stack : List Path)
    (file : SourceFile) {state : State} (closable : state.Closable) :
    compileFile settings room stack file state =
        some (Unit.compileFile settings room stack file state) ∧
      (Unit.compileFile settings room stack file state).Closable := by
  induction room generalizing stack file state with
  | zero => exact readFile_eq_some settings 0 stack file .none closable
  | succ room ih =>
      exact readFile_eq_some settings (room + 1) stack file
        (.some fun file state closable => ih _ file closable) closable

def finish (state : State) : Option State := do
  let blocks ← unterminatedAll state.blocks.reverse
  let delimiters := state.delimiters.reverse.map fun opened =>
    (Finding.unclosedDelimiter opened.delimiter).located opened.path opened.range
  return { state with
    blocks := []
    delimiters := []
    result :=
      { state.result with diagnostics := state.result.diagnostics ++ blocks ++ delimiters } }

theorem finish_eq_some {state : State} (closable : state.Closable) :
    finish state = some state.finish := by
  rw [finish, unterminatedAll_eq_some fun block member => closable block (List.mem_reverse.1 member)]
  rfl

def compileUnit (settings : Settings) (root : Path) : Option UnitReport :=
  match settings.sources.text root with
  | none => some (UnitReport.empty root)
  | some text => do
    let begun := (State.initial root settings.macros).addFile root (settings.sources.revision root)
    let done ← compileFile settings (openFileLimit - 1) [] ⟨root, text.toList⟩ begun
    return (← finish done).result

end Checked

end Unit

/-- **No cut, index or difference of a unit compile is out of bounds**, whatever the texts, the macros
and the provider are: a compile that gives up where one is has a report, that of the compile. -/
theorem inBounds_compileUnit (settings : Unit.Settings) (root : Path) :
    Unit.Checked.compileUnit settings root = some (compileUnit settings root) := by
  rw [Unit.Checked.compileUnit, compileUnit]
  cases settings.sources.text root with
  | none => rfl
  | some text =>
      have closable : Unit.State.Closable ((Unit.State.initial root settings.macros).addFile root
          (settings.sources.revision root)) := fun _ member => (List.not_mem_nil member).elim
      obtain ⟨compiled, closable'⟩ := Unit.Checked.compileFile_eq_some settings
        (Unit.openFileLimit - 1) [] ⟨root, text.toList⟩ closable
      simp only [compiled, Unit.Checked.finish_eq_some closable', Option.bind_eq_bind,
        Option.bind_some, Option.pure_def]

end SvServer
