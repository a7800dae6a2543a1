import SvServer.Proofs.Unit.Reads

/-!
# What a unit compile does, in order

A unit compile hands active tokens to the structure checks and acts on active directives, across the
files it includes and the macros it expands. The functions here go along with those of the compile
and list what is done on the way. Conditional directives are not among it: all they do is to select.

A step of a walk is described once: at a conditional directive it changes the chains, and at any
other token it does what the token calls for if the text is active, and nothing otherwise.
-/

namespace SvServer

open Hdl

namespace Unit

/-! ## Kinds of directives -/

/-- The part that a conditional directive has in a chain of branches. -/
inductive Role where
  | opens
  | continues
  | otherwise
  | closes
deriving DecidableEq, Repr

/-- The part of a token in a chain, if it is a conditional directive. -/
def role? (token : Token) : Option Role :=
  if token.kind = .directive then
    match token.text with
    | "ifdef" | "ifndef" => some .opens
    | "elsif" => some .continues
    | "else" => some .otherwise
    | "endif" => some .closes
    | _ => none
  else none

/-- Whether a directive takes the rest of its logical line. -/
def takesLine (token : Token) : Bool :=
  token.kind = .directive &&
    (["define", "undef", "include"].contains token.text || lineDirectives.contains token.text)

/-- How many of the tokens ahead an active token uses up. -/
def wordsUsed (file : SourceFile) (token : Token) (rest : List Token) : Nat :=
  if takesLine token then lineLength file token rest else 0

/-- How many of the tokens ahead are the operand of a conditional directive. -/
def operandLength (file : SourceFile) (directive : Token) (rest : List Token) : Nat :=
  if (operand? file directive rest).isSome then 1 else 0

/-- Whether the condition of a directive holds. A directive without a name counts as one whose name
is not defined. -/
def holds (definitions : Definitions) (file : SourceFile) (directive : Token) (rest : List Token) :
    Bool :=
  let defined := (operand? file directive rest).any fun name => definitions.contains name.text
  if directive.text = "ifndef" then !defined else defined

/-! ## Acts -/

/-- Something that is done at an active token. -/
inductive Act where
  /-- The token goes to the structure checks, with the tokens ahead and those before it. -/
  | check (file : SourceFile) (token : Token) (rest : List Token) (look : Lookback)
  /-- The directive, which is no conditional, is acted on, with the tokens ahead. -/
  | direct (file : SourceFile) (directive : Token) (rest : List Token)

/-- What is done along the tokens of a body; `expand` is what a use inside the body does, and
`acts` lists it. -/
def bodyActs (file : SourceFile) (site : Token) (name : String) (expand : String → Walk → Walk)
    (acts : String → Walk → List Act) : List Token → Walk → List Act
  | [], _ => []
  | token :: rest, walk =>
    if token.kind ≠ .directive then
      .check file token rest walk.look :: bodyActs file site name expand acts rest
        ⟨walk.state.inspect file token rest walk.look, walk.look.push token⟩
    else if walk.state.isObjectLike token.text then
      acts token.text walk ++ bodyActs file site name expand acts rest (expand token.text walk)
    else if !walk.state.definitions.contains token.text && !isDirectiveName token.text then
      let finding := Finding.unknownUseWithin token.text name
      bodyActs file site name expand acts rest
        { walk with state := walk.state.find file.path (file.tokenRange site) finding }
    else bodyActs file site name expand acts rest walk

/-- What is done in place of a use. -/
def expandActs (file : SourceFile) (site : Token) :
    (levels : Nat) → (name : String) → Walk → List Act
  | 0, _, _ => []
  | levels + 1, name, walk =>
    match walk.state.definitions[name]? with
    | none => []
    | some definition =>
      bodyActs file site name (expand file site levels) (expandActs file site levels)
        (bodyTokens definition.body site) walk

/-- The file that a name leads to, with the state in which it is begun. -/
def State.opened? (state : State) (settings : Settings) (stack : List Path) (directory : Path)
    (name : String) : Option (SourceFile × State) :=
  match settings.sources.resolve name directory with
  | none => none
  | some target =>
    if stack.contains target then none
    else (settings.sources.text target).map fun text =>
      (⟨target, text.toList⟩, state.addFile target (settings.sources.revision target))

/-- What a walk through a file looks at besides the tokens and the state. -/
structure Context where
  settings : Settings
  /-- The open files, innermost first -/
  stack : List Path
  /-- Reads a further file; `none` when no more files may be open -/
  compile? : Option (SourceFile → State → State)
  /-- Lists what is done in a further file -/
  acts? : Option (SourceFile → State → List Act)
  file : SourceFile

namespace Context

variable (context : Context)

/-- What is done in a file that a name leads to. -/
def includeActs (state : State) (name : String) : List Act :=
  match context.acts?,
    state.opened? context.settings context.stack context.file.path.directory name with
  | some acts, some (inner, begun) => acts inner begun
  | _, _ => []

/-- What is done at a directive. -/
def directiveActs (state : State) (directive : Token) (rest : List Token) : List Act :=
  let included := match directive.text with
    | "include" =>
      match includeName? context.file directive rest with
      | some (name, _) => context.includeActs state name
      | none => []
    | _ => []
  .direct context.file directive rest :: included

/-- A step of the walk. -/
def step (progress : Progress) (token : Token) (rest : List Token) : Progress × Nat :=
  progress.step context.settings context.stack context.compile? context.file token rest

/-- What a step of the walk does. -/
def stepActs (progress : Progress) (token : Token) (rest : List Token) : List Act :=
  let walk := progress.walk
  let active := Chain.isActive progress.chains
  if token.kind = .directive then
    if active && walk.state.isObjectLike token.text then
      expandActs context.file token expansionDepth token.text walk
    else match progress.conditional? context.file token rest with
      | some _ => []
      | none => if active then context.directiveActs walk.state token rest else []
  else if active then [.check context.file token rest walk.look]
  else []

/-- The walk through tokens of the file. -/
def walk (words : List Token) (progress : Progress) : Progress :=
  walkTokens context.settings context.stack context.compile? context.file words progress

/-- What the walk does. -/
def acts : List Token → Progress → List Act
  | [], _ => []
  | token :: rest, progress =>
    let (after, used) := context.step progress token rest
    context.stepActs progress token rest ++ acts (rest.drop used) after
termination_by tokens => tokens.length
decreasing_by simp only [List.length_drop, List.length_cons]; omega

theorem walk_nil (progress : Progress) : context.walk [] progress = progress := by
  rw [walk, walkTokens]

theorem walk_cons (token : Token) (rest : List Token) (progress : Progress) :
    context.walk (token :: rest) progress =
      context.walk (rest.drop (context.step progress token rest).2)
        (context.step progress token rest).1 := by
  rw [walk, walkTokens]
  rfl

theorem acts_nil (progress : Progress) : context.acts [] progress = [] := by rw [acts]

theorem acts_cons (token : Token) (rest : List Token) (progress : Progress) :
    context.acts (token :: rest) progress = context.stepActs progress token rest ++
      context.acts (rest.drop (context.step progress token rest).2)
        (context.step progress token rest).1 := by
  rw [acts]

end Context

/-- What is done in a file and in all that it includes. -/
def fileActs (settings : Settings) :
    (room : Nat) → (stack : List Path) → SourceFile → State → List Act
  | room, stack, file, state =>
    let around := file.path :: stack
    let acts? := match room with
      | 0 => none
      | room + 1 => some (fileActs settings room around)
    let context : Context := ⟨settings, around, compiler? settings room around, acts?, file⟩
    context.acts (tokens file.text) ⟨⟨state.begin file, .start⟩, []⟩

/-- The context of a file with this much room for further files, inside of the open ones. -/
def Context.ofFile (settings : Settings) (room : Nat) (stack : List Path) (file : SourceFile) :
    Context :=
  { settings := settings
    stack := file.path :: stack
    compile? := compiler? settings room (file.path :: stack)
    acts? := match room with
      | 0 => none
      | room + 1 => some (fileActs settings room (file.path :: stack))
    file := file }

theorem fileActs_eq (settings : Settings) (room : Nat) (stack : List Path) (file : SourceFile)
    (state : State) : fileActs settings room stack file state =
      (Context.ofFile settings room stack file).acts (tokens file.text)
        ⟨⟨state.begin file, .start⟩, []⟩ := by
  cases room <;> rfl

theorem compileFile_eq_close (settings : Settings) (room : Nat) (stack : List Path)
    (file : SourceFile) (state : State) : compileFile settings room stack file state =
      ((Context.ofFile settings room stack file).walk (tokens file.text)
        ⟨⟨state.begin file, .start⟩, []⟩).close file :=
  compileFile_eq settings room stack file state

/-! ## Effects -/

/-- Where a stretch of text leaves a walk, and what is done in it. -/
structure Effect where
  walk : Walk
  acts : List Act

/-- One stretch after another. -/
def Effect.andThen (first : Effect) (next : Walk → Effect) : Effect :=
  ⟨(next first.walk).walk, first.acts ++ (next first.walk).acts⟩

/-- What an active token calls for, if it is no conditional directive. -/
def Context.act (context : Context) (walk : Walk) (token : Token) (rest : List Token) : Effect :=
  if token.kind = .directive then
    if walk.state.isObjectLike token.text then
      ⟨expand context.file token expansionDepth token.text walk,
        expandActs context.file token expansionDepth token.text walk⟩
    else
      ⟨{ walk with
          state := (walk.state.directive context.settings context.stack context.compile?
            context.file token rest).1 },
        context.directiveActs walk.state token rest⟩
  else
    ⟨⟨walk.state.inspect context.file token rest walk.look, walk.look.push token⟩,
      [.check context.file token rest walk.look]⟩

/-- Reports a directive that has no name on its line. -/
def Walk.noteMissingName (walk : Walk) (file : SourceFile) (directive : Token)
    (rest : List Token) : Walk :=
  if (operand? file directive rest).isSome then walk
  else { walk with
    state := walk.state.find file.path (file.tokenRange directive)
      (.expectedMacroName directive.text) }

/-! ## Steps at words -/

theorem wordsUsed_of_directive (settings : Settings) (stack : List Path)
    (compile? : Option (SourceFile → State → State)) (file : SourceFile) {token : Token}
    (rest : List Token) (state : State) (directive : token.kind = .directive) :
    (state.directive settings stack compile? file token rest).2 = wordsUsed file token rest := by
  have line : takesLine token = (["define", "undef", "include"].contains token.text ||
      lineDirectives.contains token.text) := by
    rw [takesLine, decide_eq_true directive, Bool.true_and]
  rw [wordsUsed, line, State.directive]
  split
  · simp [*]
  · split <;> simp [*]
  · simp [*, lineDirectives]
  · split <;> simp [*]
  · rename_i defined undefined _ included
    have others : ["define", "undef", "include"].contains token.text = false := by
      simp only [List.contains_cons, List.contains_nil, Bool.or_false, Bool.or_eq_false_iff,
        beq_eq_false_iff_ne]
      exact ⟨defined, undefined, included⟩
    rw [others, Bool.false_or]
    split
    · rfl
    · split <;> rfl

theorem Progress.conditional?_of_word (progress : Progress) {file : SourceFile} {token : Token}
    {rest : List Token} (directive : token.kind = .directive) (word : role? token = none) :
    progress.conditional? file token rest = none := by
  rw [role?, if_pos directive] at word
  rw [conditional?]
  split at word <;> simp_all

theorem takesLine_of_isObjectLike {state : State} {token : Token}
    (use : state.isObjectLike token.text = true) : takesLine token = false := by
  rw [State.isObjectLike, Bool.and_eq_true, Bool.not_eq_true'] at use
  have name := use.1
  simp only [isDirectiveName, Bool.or_eq_false_iff, preprocessorDirectives] at name
  simp_all [takesLine]

namespace Context

variable (context : Context) (progress : Progress) {token : Token} (rest : List Token)

/-- **A step at a word** does what the word calls for if the text is active. -/
theorem step_of_word (word : role? token = none) :
    context.step progress token rest =
      if Chain.isActive progress.chains then
        (⟨(context.act progress.walk token rest).walk, progress.chains⟩,
          wordsUsed context.file token rest)
      else (progress, 0) := by
  rw [step, Progress.step, act]
  by_cases directive : token.kind = .directive
  · rw [if_pos directive, if_pos directive]
    cases active : Chain.isActive progress.chains with
    | false =>
        simp only [Bool.false_and, Bool.false_eq_true, if_false,
          progress.conditional?_of_word directive word]
    | true =>
        by_cases use : progress.walk.state.isObjectLike token.text = true
        · have used : wordsUsed context.file token rest = 0 := by
            rw [wordsUsed, takesLine_of_isObjectLike use]
            rfl
          simp only [use, used, Bool.and_self, if_true]
        · simp only [use, Bool.and_false, Bool.false_eq_true, if_false, if_true,
            progress.conditional?_of_word directive word,
            ← wordsUsed_of_directive context.settings context.stack context.compile?
              context.file rest progress.walk.state directive]
  · have used : wordsUsed context.file token rest = 0 := by
      rw [wordsUsed, takesLine, decide_eq_false directive]
      rfl
    rw [if_neg directive, if_neg directive, used]

theorem stepActs_of_word (word : role? token = none) :
    context.stepActs progress token rest =
      if Chain.isActive progress.chains then (context.act progress.walk token rest).acts
      else [] := by
  rw [stepActs, act]
  by_cases directive : token.kind = .directive
  · rw [if_pos directive, if_pos directive]
    simp only [progress.conditional?_of_word directive word]
    cases Chain.isActive progress.chains with
    | false => rfl
    | true =>
        by_cases use : progress.walk.state.isObjectLike token.text = true
        · simp only [use, Bool.and_self, if_true]
        · simp only [use, Bool.and_false, Bool.false_eq_true, if_false, if_true]
  · rw [if_neg directive, if_neg directive]

end Context

/-! ## Steps at conditional directives -/

theorem role?_eq_some {token : Token} {role : Role} : role? token = some role ↔
    token.kind = .directive ∧ match role with
      | .opens => token.text = "ifdef" ∨ token.text = "ifndef"
      | .continues => token.text = "elsif"
      | .otherwise => token.text = "else"
      | .closes => token.text = "endif" := by
  rw [role?]
  by_cases directive : token.kind = .directive
  · rw [if_pos directive]
    split <;> cases role <;> simp_all
  · simp [directive]

theorem isObjectLike_of_role {token : Token} {role : Role} (known : role? token = some role)
    (state : State) : state.isObjectLike token.text = false := by
  have name : isDirectiveName token.text = true := by
    obtain ⟨-, text⟩ := role?_eq_some.1 known
    cases role with
    | opens => rcases text with text | text <;> rw [text] <;> rfl
    | continues | otherwise | closes => rw [show token.text = _ from text]; rfl
  rw [State.isObjectLike, name]
  rfl

/-! ## Stretches of a walk -/

/-- A walk does the acts along the first tokens, and goes on with those that are left. -/
structure Passes (context : Context) (words : List Token) (before : Progress) (acts : List Act)
    (left : List Token) (after : Progress) : Prop where
  walk : context.walk words before = context.walk left after
  acts : context.acts words before = acts ++ context.acts left after

namespace Passes

variable {context : Context} {words middle left : List Token} {before between after : Progress}

theorem refl (words : List Token) (progress : Progress) :
    Passes context words progress [] words progress := ⟨rfl, rfl⟩

theorem trans {first second : List Act} (h : Passes context words before first middle between)
    (h' : Passes context middle between second left after) :
    Passes context words before (first ++ second) left after :=
  ⟨h.walk.trans h'.walk, by rw [h.acts, h'.acts, List.append_assoc]⟩

/-- A stretch where nothing is done may follow. -/
theorem silent {acts : List Act} (h : Passes context words before acts middle between)
    (h' : Passes context middle between [] left after) :
    Passes context words before acts left after := by
  have both := h.trans h'
  rwa [List.append_nil] at both

/-- Stretches where nothing is done may be left out and put in. -/
theorem symm (h : Passes context words before [] left after) :
    Passes context left after [] words before := ⟨h.walk.symm, h.acts.symm⟩

end Passes

section Step

variable (context : Context) {token : Token} (rest : List Token)

/-- One step. -/
theorem passes_step {before after : Progress} {used : Nat} {acts : List Act}
    (stepped : context.step before token rest = (after, used))
    (acted : context.stepActs before token rest = acts) :
    Passes context (token :: rest) before acts (rest.drop used) after := by
  constructor
  · rw [context.walk_cons, stepped]
  · rw [context.acts_cons, stepped, acted]

/-- Nothing is done at a word in text that is not active. -/
theorem passes_inactive {progress : Progress} (word : role? token = none)
    (inactive : Chain.isActive progress.chains = false) :
    Passes context (token :: rest) progress [] rest progress := by
  have stepped := context.step_of_word progress rest word
  have acted := context.stepActs_of_word progress rest word
  rw [inactive] at stepped acted
  exact passes_step context rest stepped acted

/-- An active word does what it calls for, and uses up what belongs to it. -/
theorem passes_active {progress : Progress} (word : role? token = none)
    (active : Chain.isActive progress.chains = true) :
    Passes context (token :: rest) progress (context.act progress.walk token rest).acts
      (rest.drop (wordsUsed context.file token rest))
      ⟨(context.act progress.walk token rest).walk, progress.chains⟩ := by
  have stepped := context.step_of_word progress rest word
  have acted := context.stepActs_of_word progress rest word
  rw [active] at stepped acted
  exact passes_step context rest stepped acted

/-- At a conditional directive nothing is done but what it does to the chains. -/
theorem passes_conditional {progress : Progress} {role : Role} (known : role? token = some role)
    {after : Progress} {used : Nat}
    (acted : progress.conditional? context.file token rest = some (after, used)) :
    Passes context (token :: rest) progress [] (rest.drop used) after := by
  have directive := (role?_eq_some.1 known).1
  apply passes_step context rest
  · rw [Context.step, Progress.step, if_pos directive]
    simp only [isObjectLike_of_role known, Bool.and_false, Bool.false_eq_true, if_false, acted]
  · rw [Context.stepActs, if_pos directive]
    simp only [isObjectLike_of_role known, Bool.and_false, Bool.false_eq_true, if_false, acted]

variable (walk : Walk) (chains : List Chain)

theorem passes_opens (opens : role? token = some .opens) :
    Passes context (token :: rest) ⟨walk, chains⟩ []
      (rest.drop (operandLength context.file token rest))
      ⟨if Chain.isActive chains then walk.noteMissingName context.file token rest else walk,
        Chain.openChain chains (holds walk.state.definitions context.file token rest)
          (context.file.tokenRange token)⟩ := by
  have noted : (if Chain.isActive chains then walk.noteMissingName context.file token rest
      else walk) = { walk with
        state := walk.state.find? context.file.path (context.file.tokenRange token)
          (if (operand? context.file token rest).isNone && Chain.isActive chains then
            some (.expectedMacroName token.text) else none) } := by
    rw [Walk.noteMissingName]
    cases Chain.isActive chains <;> cases operand? context.file token rest <;> rfl
  rw [noted]
  apply passes_conditional context rest opens
  rw [Progress.conditional?, operandLength, holds]
  obtain ⟨-, text | text⟩ := role?_eq_some.1 opens <;> rw [text] <;> rfl

theorem passes_continues (continues : role? token = some .continues) :
    Passes context (token :: rest) ⟨walk, chains⟩ []
      (rest.drop (operandLength context.file token rest))
      (Progress.afterBranch ⟨walk, chains⟩ context.file token
        (Chain.elsifBranch chains (holds walk.state.definitions context.file token rest))) := by
  apply passes_conditional context rest continues
  rw [Progress.conditional?, operandLength, holds,
    show token.text = "elsif" from (role?_eq_some.1 continues).2]
  rfl

theorem passes_otherwise (otherwise : role? token = some .otherwise) :
    Passes context (token :: rest) ⟨walk, chains⟩ [] rest
      (Progress.afterBranch ⟨walk, chains⟩ context.file token (Chain.elseBranch chains)) := by
  have acted : Progress.conditional? ⟨walk, chains⟩ context.file token rest = some
      (Progress.afterBranch ⟨walk, chains⟩ context.file token (Chain.elseBranch chains), 0) := by
    rw [Progress.conditional?, show token.text = "else" from (role?_eq_some.1 otherwise).2]
    rfl
  exact passes_conditional context rest otherwise acted

theorem passes_closes (closes : role? token = some .closes) :
    Passes context (token :: rest) ⟨walk, chains⟩ [] rest
      (Progress.afterBranch ⟨walk, chains⟩ context.file token (Chain.closeChain chains)) := by
  have acted : Progress.conditional? ⟨walk, chains⟩ context.file token rest = some
      (Progress.afterBranch ⟨walk, chains⟩ context.file token (Chain.closeChain chains), 0) := by
    rw [Progress.conditional?, show token.text = "endif" from (role?_eq_some.1 closes).2]
    rfl
  exact passes_conditional context rest closes acted

end Step

end Unit

/-- What the compile of a unit does, in order. -/
def unitActs (settings : Unit.Settings) (root : Path) : List Unit.Act :=
  match settings.sources.text root with
  | none => []
  | some text =>
    let begun :=
      (Unit.State.initial root settings.macros).addFile root (settings.sources.revision root)
    Unit.fileActs settings (Unit.openFileLimit - 1) [] ⟨root, text.toList⟩ begun

end SvServer
