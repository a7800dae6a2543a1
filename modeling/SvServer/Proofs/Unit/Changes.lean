import Mathlib.Logic.Relation
import SvServer.Proofs.Hdl.Token
import SvServer.Proofs.Unit.Reads

/-!
# What a unit compile can do

A unit compile changes its state in a few ways only. It keeps books of definitions and of what is open,
reports what is wrong with the text of a file, records declarations and instances at the tokens of the
file that is open, and notes which files it reads and which it misses. Every function of the compile is
a series of such changes, so what each change keeps is kept by the compile of a whole unit.
-/

namespace SvServer

open Hdl

/-- The severity of what is reported under a name: that of redefined macros is configured, and all
else is an error. -/
def DiagnosticName.severity (redefined : Severity) (name : DiagnosticName) : Severity :=
  if name = .macroRedefined then redefined else .error

/-- Whether a finding is about the text of the files of one unit, and an error however severities are
configured. -/
def Finding.isLocal (finding : Finding) : Prop :=
  (finding.name.isCrossFile || finding.name == .macroRedefined) = false

theorem Finding.isLocal.severity {finding : Finding} (isLocal : finding.isLocal)
    (redefined : Severity) : finding.name.isCrossFile = false ∧
      Severity.error = finding.name.severity redefined := by
  rw [Finding.isLocal, Bool.or_eq_false_iff, beq_eq_false_iff_ne] at isLocal
  exact ⟨isLocal.1, (if_neg isLocal.2).symm⟩

theorem Finding.isLocal_unterminated (block : Unit.PendingBlock) :
    block.unterminated.isLocal := rfl

theorem Finding.isLocal_of_unbalanced {finding : Finding}
    (conditional : finding.name = .unbalancedConditional) : finding.isLocal := by
  rw [Finding.isLocal, conditional]
  rfl

theorem Finding.isLocal_lexical (kind : LexicalErrorKind) : (Unit.lexicalFinding kind).isLocal := by
  cases kind <;> rfl

/-- A declaration stands at a token of a file that can be read, and its name is one word. -/
structure Declaration.Stands (sources : Sources) (declaration : Declaration) : Prop where
  place : ∃ text, sources.text declaration.path = some text ∧ ∃ site ∈ tokens text.toList,
    declaration.range = Unit.SourceFile.tokenRange ⟨declaration.path, text.toList⟩ site
  word : ∀ c ∈ declaration.name.toList, Text.isAsciiBlank c = false

namespace Unit

/-! ## Changes -/

/-- One change of the state of a unit compile. -/
inductive Change (settings : Settings) : State → State → Prop
  /-- Definitions, and blocks and delimiters that are open. -/
  | books (state : State) (definitions : Definitions) (blocks : List PendingBlock)
      (delimiters : List PendingDelimiter) :
      Change settings state ⟨definitions, blocks, delimiters, state.result⟩
  | report (state : State) (found : List Diagnostic)
      (isLocal : ∀ d ∈ found, d.name.isCrossFile = false ∧
        d.severity = d.name.severity settings.redefinedSeverity) :
      Change settings state { state with result :=
        { state.result with diagnostics := state.result.diagnostics ++ found } }
  | declare (state : State) (declaration : Declaration)
      (stands : declaration.Stands settings.sources)
      (listed : state.result.filesRead.contains declaration.path = true) :
      Change settings state { state with result :=
        { state.result with declarations := state.result.declarations ++ [declaration] } }
  | instantiate (state : State) (instantiation : Instantiation) :
      Change settings state { state with result :=
        { state.result with instantiations := state.result.instantiations ++ [instantiation] } }
  | read (state : State) (path : Path) (revision : Option Nat) :
      Change settings state (state.addFile path revision)
  | miss (state : State) (name : String) : Change settings state (state.addMissing name)

/-- A series of changes. -/
abbrev Changes (settings : Settings) : State → State → Prop :=
  Relation.ReflTransGen (Change settings)

variable {settings : Settings} {before after : State}

/-- **What every change keeps, a series of changes keeps.** -/
theorem Changes.keeps (changes : Changes settings before after) (holds : State → Prop)
    (step : ∀ {before after}, Change settings before after → holds before → holds after)
    (h : holds before) : holds after := by
  induction changes with
  | refl => exact h
  | tail _ change ih => exact step change ih

/-- A file once read stays read. -/
theorem Changes.contains_filesRead (changes : Changes settings before after) {path : Path}
    (read : before.result.filesRead.contains path = true) :
    after.result.filesRead.contains path = true := by
  refine changes.keeps (fun state => state.result.filesRead.contains path = true) ?_ read
  intro _ _ change read
  cases change with
  | read added revision =>
      rename_i state
      show (state.result.filesRead.insert added).contains path = true
      rw [PathSet.contains_insert, read, Bool.or_true]
  | _ => exact read

/-! ## Changes while a file is open -/

/-- The file holds what can be read of it, and counts as read. -/
structure State.Opens (state : State) (sources : Sources) (file : SourceFile) : Prop where
  readable : ∃ text, sources.text file.path = some text ∧ file.text = text.toList
  listed : state.result.filesRead.contains file.path = true

/-- The second state follows from the first by changes, if the file is open. -/
def Moves (settings : Settings) (file : SourceFile) (before after : State) : Prop :=
  before.Opens settings.sources file → Changes settings before after

namespace Moves

variable {file : SourceFile} {state middle : State}

theorem refl (state : State) : Moves settings file state state := fun _ => .refl

theorem of_change (change : Change settings before after) : Moves settings file before after :=
  fun _ => .single change

/-- A file that is open stays open. -/
theorem trans (first : Moves settings file before middle)
    (second : Moves settings file middle after) : Moves settings file before after :=
  fun opened => (first opened).trans
    (second ⟨opened.readable, (first opened).contains_filesRead opened.listed⟩)

theorem tail (first : Moves settings file before middle) (change : Change settings middle after) :
    Moves settings file before after :=
  first.trans (of_change change)

theorem report {d : Diagnostic} (isLocal : d.name.isCrossFile = false ∧
      d.severity = d.name.severity settings.redefinedSeverity) :
    Moves settings file state (state.report d) :=
  of_change (.report state [d] fun _ member => by rwa [List.mem_singleton.1 member])

theorem find (path : Path) (range : Range) (finding : Finding) (isLocal : finding.isLocal) :
    Moves settings file state (state.find path range finding) :=
  report (isLocal.severity _)

theorem find? {finding : Option Finding} (isLocal : ∀ found, finding = some found → found.isLocal)
    (path : Path) (range : Range) : Moves settings file state (state.find? path range finding) := by
  cases finding with
  | none => exact refl state
  | some found => exact find path range found (isLocal found rfl)

theorem foldl {α : Type} {step : State → α → State}
    (steps : ∀ state x, Moves settings file state (step state x)) (list : List α) :
    Moves settings file state (list.foldl step state) := by
  induction list generalizing state with
  | nil => exact refl state
  | cons first rest ih => exact (steps state first).trans ih

end Moves

/-! ## Tokens of an open file -/

/-- A token of a file, or one of a macro body that is used in it: it stands where a token of the file
does, and its text is that of some token of its kind. -/
structure Placed (file : SourceFile) (token : Token) : Prop where
  site : ∃ site ∈ tokens file.text, token.start = site.start ∧ token.stop = site.stop
  word : ∃ text, ∃ word ∈ tokens text, word.kind = token.kind ∧ word.text = token.text

variable {file : SourceFile} {token : Token} {rest : List Token}

theorem placed_of_mem (member : token ∈ tokens file.text) : Placed file token :=
  ⟨⟨token, member, rfl, rfl⟩, ⟨file.text, token, member, rfl, rfl⟩⟩

theorem placed_of_mem_bodyTokens {site : Token} (placed : Placed file site) {body : String}
    (member : token ∈ bodyTokens body site) : Placed file token := by
  obtain ⟨word, listed, rfl⟩ := List.mem_map.1 member
  exact ⟨placed.site, ⟨body.toList, word, listed, rfl, rfl⟩⟩

/-- A declared name is an identifier among the tokens ahead. -/
theorem mem_of_declaredName? {count : Nat} {name : Token} {header : List Token}
    (found : declaredName? count rest = some (name, header)) :
    name ∈ rest ∧ name.kind = .identifier := by
  fun_induction declaredName? count rest with
  | case1 => cases found
  | case2 => cases found
  | case3 count token rest named =>
      cases found
      rw [Bool.and_eq_true, Bool.and_eq_true, beq_iff_eq] at named
      exact ⟨.head _, named.1.1⟩
  | case4 count token rest _ ih => exact (ih found).imp_left (.tail _)

/-- What is declared at a token of an open file stands there. -/
theorem stands_of_placed {state : State} (opened : state.Opens settings.sources file) {name : Token}
    (placed : Placed file name) (identifier : name.kind = .identifier) (kind : DesignElement)
    (parameters : List Parameter) (ports : List String) :
    Declaration.Stands settings.sources
      ⟨name.text, kind, file.path, file.tokenRange name, parameters, ports⟩ := by
  obtain ⟨⟨site, listed, start, stop⟩, text, word, known, sort, spelled⟩ := placed
  obtain ⟨content, readable, same⟩ := opened.readable
  refine ⟨⟨content, readable, site, same ▸ listed, ?_⟩, ?_⟩
  · rw [SourceFile.tokenRange, SourceFile.tokenRange, SourceFile.range, SourceFile.range, start, stop,
      same]
  · rw [← spelled]
    exact Hdl.isAsciiBlank_of_identifier known (sort.trans identifier)

/-! ## Structure checks -/

section Structure

variable {state : State} {look : Lookback}

theorem moves_openBlock (placed : ∀ next ∈ rest, Placed file next) (closers : List String) :
    Moves settings file state (state.openBlock file token closers rest) := by
  rcases state.openBlock_cases file token rest closers with
    same | ⟨kind, name, header, -, found, -, same⟩ <;> rw [same]
  · exact .of_change (.books _ _ _ _)
  · intro opened
    obtain ⟨member, identifier⟩ := mem_of_declaredName? found
    exact .tail (.single (.declare state _
      (stands_of_placed opened (placed name member) identifier _ _ _) opened.listed))
      (.books _ _ _ _)

theorem moves_closeBlock : Moves settings file state (state.closeBlock file token) := by
  rcases state.closeBlock_cases file token with same | ⟨skipped, closed, outer, -, same⟩ <;> rw [same]
  · exact .find _ _ (.unexpectedBlockEnd token.text) rfl
  · refine .tail (.of_change (.report state _ fun d member => ?_)) (.books _ _ _ _)
    obtain ⟨block, -, rfl⟩ := List.mem_map.1 member
    exact (Finding.isLocal_unterminated block).severity _

theorem moves_closeDelimiter (delimiter : Delimiter) :
    Moves settings file state (state.closeDelimiter file token delimiter) := by
  rcases state.closeDelimiter_cases file token delimiter with
    same | ⟨innermost, outer, -, same⟩ | ⟨innermost, remaining, -, same⟩ <;> rw [same]
  · exact .find _ _ (.unexpectedDelimiter delimiter) rfl
  · exact .of_change (.books _ _ _ _)
  · exact (Moves.find _ _ (.mismatchedDelimiter innermost delimiter) rfl).tail (.books _ _ _ _)

theorem moves_inspect (placed : ∀ next ∈ rest, Placed file next) :
    Moves settings file state (state.inspect file token rest look) := by
  rcases state.inspect_cases file token rest look with
    same | ⟨-, same | ⟨closers, -, same⟩ | same⟩ | ⟨delimiter, same | same⟩ <;> rw [same]
  · exact .refl state
  · exact moves_closeBlock
  · exact moves_openBlock placed closers
  · exact .of_change (.instantiate _ _)
  · exact .of_change (.books _ _ _ _)
  · exact moves_closeDelimiter delimiter

/-- What is open at the end is reported as such. -/
theorem changes_finish : Changes settings state state.finish := by
  have closed : Changes settings state ⟨state.definitions, [], [], state.result⟩ :=
    .single (.books state _ _ _)
  refine (closed.tail (.report _ (state.blocks.reverse.map fun block =>
    block.unterminated.located block.path block.range) ?_)).tail (.report _ _ ?_)
  · intro d member
    obtain ⟨block, -, rfl⟩ := List.mem_map.1 member
    exact (Finding.isLocal_unterminated block).severity _
  · intro d member
    obtain ⟨opened, -, rfl⟩ := List.mem_map.1 member
    exact ⟨rfl, rfl⟩

theorem moves_define :
    Moves settings file state (state.define settings file token rest) := by
  rcases state.define_cases settings file token rest with
    ⟨-, same⟩ | ⟨name, reported, definitions, -, rfl | rfl, same⟩ <;> rw [same]
  · exact .find _ _ (.expectedMacroName token.text) rfl
  · exact .of_change (.books _ _ _ _)
  · exact (Moves.report ⟨rfl, rfl⟩).tail (.books _ _ _ _)

end Structure

/-! ## Walks -/

theorem moves_walkBody {name : String} {expand : String → Walk → Walk}
    (expands : ∀ name walk, Moves settings file walk.state (expand name walk).state)
    {words : List Token} (placed : ∀ word ∈ words, Placed file word) (walk : Walk) :
    Moves settings file walk.state (walkBody file token name expand words walk).state := by
  induction words generalizing walk with
  | nil => exact .refl walk.state
  | cons first rest ih =>
      have ahead : ∀ word ∈ rest, Placed file word := fun word member => placed word (.tail _ member)
      rw [walkBody]
      split
      · exact (moves_inspect ahead).trans (ih ahead ⟨_, _⟩)
      · split
        · exact (expands _ _).trans (ih ahead _)
        · split
          · exact .trans (.find _ _ (.unknownUseWithin first.text name) rfl) (ih ahead ⟨_, _⟩)
          · exact ih ahead walk

/-- The tokens of a body are checked at the place of the use. -/
theorem moves_expand (placed : Placed file token) (levels : Nat) (name : String) (walk : Walk) :
    Moves settings file walk.state (expand file token levels name walk).state := by
  induction levels generalizing name walk with
  | zero => exact .refl walk.state
  | succ levels ih =>
      rw [expand]
      split
      · exact .refl walk.state
      · exact moves_walkBody (fun name walk => ih name walk)
          (fun word member => placed_of_mem_bodyTokens placed member) walk

variable {progress : Progress}

theorem moves_afterBranch (step : List Chain × Option Finding)
    (isLocal : ∀ finding, step.2 = some finding → finding.isLocal) :
    Moves settings file progress.walk.state (progress.afterBranch file token step).walk.state :=
  .find? isLocal _ _

theorem moves_conditional? {done : Progress × Nat}
    (acted : progress.conditional? file token rest = some done) :
    Moves settings file progress.walk.state done.1.walk.state := by
  have opened : ∀ finding, (if (operand? file token rest).isNone && Chain.isActive progress.chains
      then some (Finding.expectedMacroName token.text) else none) = some finding →
      finding.isLocal := by
    intro finding found
    split at found
    · rw [← Option.some.inj found]
      rfl
    · cases found
  rw [Progress.conditional?] at acted
  dsimp only at acted
  split at acted
  · rw [← Option.some.inj acted]
    exact moves_afterBranch _ opened
  · rw [← Option.some.inj acted]
    exact moves_afterBranch _ opened
  · rw [← Option.some.inj acted]
    exact moves_afterBranch _ fun _ found =>
      Finding.isLocal_of_unbalanced (Chain.name_elsifBranch found)
  · rw [← Option.some.inj acted]
    exact moves_afterBranch _ fun _ found =>
      Finding.isLocal_of_unbalanced (Chain.name_elseBranch found)
  · rw [← Option.some.inj acted]
    exact moves_afterBranch _ fun _ found =>
      Finding.isLocal_of_unbalanced (Chain.name_closeChain found)
  · cases acted

section Include

variable {stack : List Path} {compile? : Option (SourceFile → State → State)}
variable (compiles : ∀ compile, compile? = some compile → ∀ inner state,
  Moves settings inner state (compile inner state))

include compiles

/-- Another file is opened only where it can be read, and then it counts as read. -/
theorem moves_includeFile (state : State) (name : String) (range : Range) :
    Moves settings file state
      (state.includeFile settings stack compile? file name range) := by
  rw [State.includeFile]
  split
  · exact .trans (.of_change (.miss state name)) (.find _ _ (.includeNotFound name) rfl)
  · rename_i target _
    split
    · exact .find _ _ (.includesItself name) rfl
    · split
      · exact .find _ _ (.includesTooDeep openFileLimit) rfl
      · split
        · rename_i text readable
          intro _
          refine .head (.read state target (settings.sources.revision target))
            (compiles _ rfl _ _ ⟨⟨text, readable, rfl⟩, ?_⟩)
          show (state.result.filesRead.insert target).contains target = true
          rw [PathSet.contains_insert, BEq.rfl, Bool.true_or]
        · exact .trans (.of_change (.miss state name))
            (.find _ _ (.includeUnreadable name) rfl)

theorem moves_directive (state : State) :
    Moves settings file state
      (state.directive settings stack compile? file token rest).1 := by
  rw [State.directive]
  split
  · exact moves_define
  · split
    · exact .of_change (.books _ _ _ _)
    · exact .find _ _ (.expectedMacroName token.text) rfl
  · exact .of_change (.books _ _ _ _)
  · split
    · exact moves_includeFile compiles _ _ _
    · exact .find _ _ .expectedIncludeName rfl
  · split
    · exact .refl state
    · split
      · exact .refl state
      · exact .find _ _ (.unknownDirective token.text) rfl

theorem moves_step (progress : Progress) (here : Placed file token) (ahead : ∀ next ∈ rest, Placed file next) :
    Moves settings file progress.walk.state
      (progress.step settings stack compile? file token rest).1.walk.state := by
  rw [Progress.step]
  dsimp only
  split
  · split
    · exact moves_expand here expansionDepth token.text _
    · split
      · exact moves_conditional? ‹_›
      · split
        · exact moves_directive compiles _
        · exact .refl _
  · split
    · exact moves_inspect ahead
    · exact .refl _

theorem moves_walkTokens (progress : Progress) {words : List Token} (placed : ∀ word ∈ words, Placed file word) :
    Moves settings file progress.walk.state
      (walkTokens settings stack compile? file words progress).walk.state := by
  induction words, progress using walkTokens.induct settings stack compile? file with
  | case1 progress =>
      rw [walkTokens]
      exact .refl _
  | case2 token rest progress after used stepped ih =>
      rw [walkTokens, stepped]
      have ahead : ∀ next ∈ rest, Placed file next := fun next member => placed next (.tail _ member)
      have moved : Moves settings file progress.walk.state
          (progress.step settings stack compile? file token rest).1.walk.state :=
        moves_step compiles progress (placed token (.head _)) ahead
      rw [stepped] at moved
      exact moved.trans (ih fun next member => ahead next (List.mem_of_mem_drop member))

end Include

/-! ## Files and units -/

theorem moves_begin (state : State) : Moves settings file state (state.begin file) :=
  .foldl (fun _ (error : LexicalError) => .find _ _ _ (Finding.isLocal_lexical error.kind)) _

theorem moves_close : Moves settings file progress.walk.state (progress.close file) :=
  .foldl (fun _ _ => .find _ _ .missingEndif rfl) _

/-- **Reading a file is a series of changes.** -/
theorem moves_compileFile (room : Nat) (stack : List Path)
    (file : SourceFile) (state : State) :
    Moves settings file state (compileFile settings room stack file state) := by
  induction room generalizing stack file state with
  | zero =>
      rw [compileFile_eq]
      have none : ∀ compile, compiler? settings 0 (file.path :: stack) = some compile →
          ∀ inner state, Moves settings inner state (compile inner state) :=
        fun _ opened => absurd opened nofun
      exact (moves_begin state).trans (.trans
        (moves_walkTokens none ⟨⟨state.begin file, .start⟩, []⟩ fun _ => placed_of_mem) moves_close)
  | succ room ih =>
      rw [compileFile_eq]
      have further : ∀ compile,
          compiler? settings (room + 1) (file.path :: stack) = some compile →
          ∀ inner state, Moves settings inner state (compile inner state) := by
        intro compile opened inner state
        rw [← Option.some.inj opened]
        exact ih _ inner state
      exact (moves_begin state).trans (.trans
        (moves_walkTokens further ⟨⟨state.begin file, .start⟩, []⟩ fun _ => placed_of_mem)
        moves_close)

/-- **The compile of a unit is a series of changes** from nothing. -/
theorem changes_compileUnit (settings : Settings) (root : Path) :
    ∃ done, Changes settings (State.initial root settings.macros) done ∧
      compileUnit settings root = done.result := by
  rw [compileUnit]
  cases readable : settings.sources.text root with
  | none => exact ⟨_, .refl, rfl⟩
  | some text =>
      refine ⟨_, .head (.read _ root (settings.sources.revision root))
        (.trans (moves_compileFile _ [] ⟨root, text.toList⟩ _
          ⟨⟨text, readable, rfl⟩, ?_⟩) changes_finish), rfl⟩
      show (Std.ExtTreeSet.insert _ root).contains root = true
      rw [PathSet.contains_insert, BEq.rfl, Bool.true_or]

end Unit

end SvServer
