import SvServer.Unit.Expansion
import SvServer.Unit.Conditional

/-!
Compiling a unit: the preprocessor over the tokens of the root file and of every file it includes,
with the structure checks on the tokens that are active.

An include is followed only while fewer than `maxIncludeDepth` files are open. The nesting still
allowed is a number that goes down with every file opened, and within a file every step moves on to
later tokens; so a unit compile always ends.
-/

namespace SvServer.Unit

open Hdl

/-- So many files may be open at once, one including the next. -/
def openFileLimit : Nat := 32

/-- What a unit compile depends on besides the root. -/
structure Settings where
  sources : Sources
  macros : MacroTable
  redefinedSeverity : Severity

/-! ## Bodies of definitions -/

/-- A body with each escaped line break read as a blank. -/
def joinLines : List Char → List Char
  | [] => []
  | '\\' :: '\r' :: '\n' :: rest => ' ' :: joinLines rest
  | '\\' :: '\n' :: rest => ' ' :: joinLines rest
  | c :: rest => c :: joinLines rest

/-- The stored form of a body: words with one blank between two of them. Bodies that differ only in
blanks and continued lines have the same stored form. -/
def storedBody (raw : List Char) : String :=
  String.intercalate " " ((Text.words (joinLines raw)).map String.ofList)

/-! ## Operands -/

/-- The end of the logical line of a directive. -/
def SourceFile.lineEnd (file : SourceFile) (token : Token) : Nat :=
  logicalLineEnd file.text token.stop

/-- The name that follows a directive on its logical line. -/
def operand? (file : SourceFile) (directive : Token) (rest : List Token) : Option Token :=
  rest.head?.filter fun token =>
    token.start < file.lineEnd directive && token.kind == .identifier

/-- How many tokens follow a directive on its logical line. -/
def lineLength (file : SourceFile) (directive : Token) (rest : List Token) : Nat :=
  (rest.takeWhile fun token => token.start < file.lineEnd directive).length

/-! ## Includes -/

/-- The name in an include directive and the place of that name: a string, or all between `<` and
the next `>` of the logical line. -/
def includeName? (file : SourceFile) (directive : Token) (rest : List Token) :
    Option (String × Range) :=
  let lineEnd := file.lineEnd directive
  match rest.head?.filter fun token => token.start < lineEnd with
  | none => none
  | some token =>
    if token.kind == .string && token.text ≠ "" then some (token.text, file.tokenRange token)
    else if token.text = "<" then
      let after := Text.slice file.text token.stop lineEnd
      let inner := after.takeWhile (· ≠ '>')
      if inner.isEmpty || inner.length = after.length then none
      else
        some (String.ofList (Text.trimChars inner),
          file.range token.start (token.stop + Text.byteLength inner + 1))
    else none

/-- Follows an include directive. `compile?` reads a further file, and is `none` when no more files
may be open. -/
def State.includeFile (state : State) (settings : Settings) (stack : List Path)
    (compile? : Option (SourceFile → State → State)) (file : SourceFile) (name : String)
    (range : Range) : State :=
  match settings.sources.resolve name file.path.directory with
  | none => (state.addMissing name).find file.path range (.includeNotFound name)
  | some target =>
    if stack.contains target then state.find file.path range (.includesItself name)
    else match compile? with
      | none => state.find file.path range (.includesTooDeep openFileLimit)
      | some compile =>
        match settings.sources.text target with
        | some text => compile ⟨target, text.toList⟩
            (state.addFile target (settings.sources.revision target))
        | none => (state.addMissing name).find file.path range (.includeUnreadable name)

/-! ## Directives -/

/-- Records a definition. A body that differs from the one a file gave the name before is reported;
definitions of the project may be replaced freely. -/
def State.define (state : State) (settings : Settings) (file : SourceFile) (directive : Token)
    (rest : List Token) : State :=
  match operand? file directive rest with
  | none => state.find file.path (file.tokenRange directive) (.expectedMacroName directive.text)
  | some name =>
    let body := storedBody (Text.slice file.text name.stop (file.lineEnd directive))
    let functionLike := (Text.dropBytes file.text name.stop).head? == some '('
    let clashes := match state.definitions[name.text]? with
      | some known => !known.fromProject && known.body ≠ body
      | none => false
    let reported :=
      if clashes then
        state.report { (Finding.redefined name.text).located file.path (file.tokenRange name) with
          severity := settings.redefinedSeverity }
      else state
    { reported with
      definitions := reported.definitions.insert name.text ⟨body, functionLike, false⟩ }

/-- What a definition does: without a name it is reported, and with one only the definitions change,
apart from the report of a name that was given another body. -/
theorem State.define_cases (state : State) (settings : Settings) (file : SourceFile)
    (directive : Token) (rest : List Token) :
    (operand? file directive rest = none ∧ state.define settings file directive rest =
      state.find file.path (file.tokenRange directive) (.expectedMacroName directive.text)) ∨
    ∃ name reported definitions, operand? file directive rest = some name ∧
      (reported = state ∨ reported = state.report
        { (Finding.redefined name.text).located file.path (file.tokenRange name) with
          severity := settings.redefinedSeverity }) ∧
      state.define settings file directive rest =
        { reported with definitions := definitions } := by
  rw [State.define]
  cases found : operand? file directive rest with
  | none => exact .inl ⟨rfl, rfl⟩
  | some name =>
      have reported (clashes : Bool) (clash : Diagnostic) :
          (if clashes then state.report clash else state) = state ∨
            (if clashes then state.report clash else state) = state.report clash := by
        cases clashes
        · exact .inl rfl
        · exact .inr rfl
      exact .inr ⟨name, _, _, rfl, reported _ _, rfl⟩

/-- The state of a walk through one file. -/
structure Progress where
  walk : Walk
  chains : List Chain

/-- Reports on a conditional directive. -/
def Progress.afterBranch (progress : Progress) (file : SourceFile) (directive : Token)
    (step : List Chain × Option Finding) : Progress :=
  { chains := step.1
    walk := { progress.walk with
      state := progress.walk.state.find? file.path (file.tokenRange directive) step.2 } }

/-- Acts on a conditional directive; `none` for any other directive. Also gives the number of tokens
used up after it. -/
def Progress.conditional? (progress : Progress) (file : SourceFile) (directive : Token)
    (rest : List Token) : Option (Progress × Nat) :=
  let operand := operand? file directive rest
  let defined := operand.any fun name => progress.walk.state.definitions.contains name.text
  let used := if operand.isSome then 1 else 0
  let opened (condition : Bool) : Progress × Nat :=
    let finding := if operand.isNone && Chain.isActive progress.chains then
        some (.expectedMacroName directive.text)
      else none
    (progress.afterBranch file directive
      (Chain.openChain progress.chains condition (file.tokenRange directive), finding), used)
  match directive.text with
  | "ifdef" => some (opened defined)
  | "ifndef" => some (opened (!defined))
  | "elsif" =>
    some (progress.afterBranch file directive (Chain.elsifBranch progress.chains defined), used)
  | "else" => some (progress.afterBranch file directive (Chain.elseBranch progress.chains), 0)
  | "endif" => some (progress.afterBranch file directive (Chain.closeChain progress.chains), 0)
  | _ => none

/-- Acts on a directive other than a conditional in active text. Also gives the number of tokens
used up after it. -/
def State.directive (state : State) (settings : Settings) (stack : List Path)
    (compile? : Option (SourceFile → State → State)) (file : SourceFile) (directive : Token)
    (rest : List Token) : State × Nat :=
  let line := lineLength file directive rest
  let range := file.tokenRange directive
  match directive.text with
  | "define" => (state.define settings file directive rest, line)
  | "undef" =>
    match operand? file directive rest with
    | some name => ({ state with definitions := state.definitions.erase name.text }, line)
    | none => (state.find file.path range (.expectedMacroName directive.text), line)
  | "undefineall" => ({ state with definitions := ∅ }, 0)
  | "include" =>
    match includeName? file directive rest with
    | some (name, nameRange) =>
      (state.includeFile settings stack compile? file name nameRange, line)
    | none => (state.find file.path range .expectedIncludeName, line)
  | name =>
    if lineDirectives.contains name then (state, line)
    else if plainDirectives.contains name || state.definitions.contains name then (state, 0)
    else (state.find file.path range (.unknownDirective name), 0)

/-- Acts on the token before `rest`. Also gives the number of tokens used up after it. -/
def Progress.step (progress : Progress) (settings : Settings) (stack : List Path)
    (compile? : Option (SourceFile → State → State)) (file : SourceFile) (token : Token)
    (rest : List Token) : Progress × Nat :=
  let walk := progress.walk
  let active := Chain.isActive progress.chains
  if token.kind = .directive then
    if active && walk.state.isObjectLike token.text then
      ({ progress with walk := expand file token expansionDepth token.text walk }, 0)
    else match progress.conditional? file token rest with
      | some after => after
      | none =>
        if active then
          let (state, used) := walk.state.directive settings stack compile? file token rest
          ({ progress with walk := { walk with state := state } }, used)
        else (progress, 0)
  else if active then
    ({ progress with
        walk := ⟨walk.state.inspect file token rest walk.look, walk.look.push token⟩ }, 0)
  else (progress, 0)

/-- Walks the tokens of a file. -/
def walkTokens (settings : Settings) (stack : List Path)
    (compile? : Option (SourceFile → State → State)) (file : SourceFile) :
    List Token → Progress → Progress
  | [], progress => progress
  | token :: rest, progress =>
    let (after, used) := progress.step settings stack compile? file token rest
    walkTokens settings stack compile? file (rest.drop used) after
termination_by tokens => tokens.length
decreasing_by simp only [List.length_drop, List.length_cons]; omega

/-! ## Files and units -/

/-- The finding for a lexical error. -/
def lexicalFinding : LexicalErrorKind → Finding
  | .unterminatedComment => .unterminatedComment
  | .unterminatedString => .unterminatedString

/-- Reads one file with all it includes. `room` is the number of files that may still be opened
inside of it, and `stack` holds the files around it, innermost first. -/
def compileFile (settings : Settings) :
    (room : Nat) → (stack : List Path) → SourceFile → State → State
  | room, stack, file, state =>
    let around := file.path :: stack
    let compile? := match room with
      | 0 => none
      | room + 1 => some (compileFile settings room around)
    let begun := (lexicalErrors file.text).foldl (fun state error =>
      state.find file.path (file.range error.start error.stop) (lexicalFinding error.kind)) state
    let done := walkTokens settings around compile? file (tokens file.text) ⟨⟨begun, .start⟩, []⟩
    done.chains.reverse.foldl
      (fun state chain => state.find file.path chain.range .missingEndif) done.walk.state

end Unit

/-- Compiles the unit of a root file. Without a readable root nothing is read and nothing found. -/
def compileUnit (settings : Unit.Settings) (root : Path) : UnitReport :=
  match settings.sources.text root with
  | none => UnitReport.empty root
  | some text =>
    let begun :=
      (Unit.State.initial root settings.macros).addFile root (settings.sources.revision root)
    (Unit.compileFile settings (Unit.openFileLimit - 1) [] ⟨root, text.toList⟩ begun).finish.result

end SvServer
