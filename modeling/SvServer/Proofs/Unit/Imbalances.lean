import Mathlib.Data.List.Infix
import SvServer.Proofs.Unit.Passages

/-!
# The balance of conditionals under other macros

Which branches are active has no part in how the conditional directives of a text pair up. But a
walk looks at more of them where text is not active: only a directive that is acted on takes its
line, with all that stands on it. So two tables of macros may give different reports, if a directive
is acted on under one of them only and the conditionals on its line are not nested. Otherwise two
walks through one text keep chains of the same shape.
-/

namespace SvServer

open Hdl

namespace Unit

/-! ## The shape of chains -/

/-- What counts of a chain for the balance. -/
structure Shape where
  seenElse : Bool
  range : Range

def Chain.shape (chain : Chain) : Shape := ⟨chain.seenElse, chain.range⟩

/-- What a conditional directive in this part does to shapes, and what there is to report. -/
def Role.branch : Role → Range → List Shape → List Shape × Option Finding
  | .opens, range, shapes => (⟨false, range⟩ :: shapes, none)
  | .continues, _, [] => ([], some .elsifAlone)
  | .continues, _, shape :: outer =>
    (shape :: outer, if shape.seenElse then some .elsifAfterElse else none)
  | .otherwise, _, [] => ([], some .elseAlone)
  | .otherwise, _, shape :: outer =>
    (⟨true, shape.range⟩ :: outer, if shape.seenElse then some .repeatedElse else none)
  | .closes, _, [] => ([], some .endifAlone)
  | .closes, _, _ :: outer => (outer, none)

namespace Chain

variable (chains : List Chain) (condition : Bool) (range : Range)

theorem shape_elsifBranch :
    ((elsifBranch chains condition).1.map shape, (elsifBranch chains condition).2) =
      Role.continues.branch range (chains.map shape) := by
  cases chains with
  | nil => rfl
  | cons chain outer =>
      obtain ⟨parent, active, taken, seen, range⟩ := chain
      cases seen <;> rfl

theorem shape_elseBranch :
    ((elseBranch chains).1.map shape, (elseBranch chains).2) =
      Role.otherwise.branch range (chains.map shape) := by
  cases chains with
  | nil => rfl
  | cons chain outer =>
      obtain ⟨parent, active, taken, seen, range⟩ := chain
      cases seen <;> rfl

theorem shape_closeChain :
    ((closeChain chains).1.map shape, (closeChain chains).2) =
      Role.closes.branch range (chains.map shape) := by
  cases chains <;> rfl

end Chain

/-! ## The balance of a walk -/

/-- What a walk knows about the balance of conditionals. -/
structure Balance where
  shapes : List Shape
  imbalances : List Diagnostic

def Progress.balance (progress : Progress) : Balance :=
  ⟨progress.chains.map Chain.shape, progress.walk.state.result.imbalances⟩

/-- The balance after a conditional directive. -/
def Balance.branch (balance : Balance) (file : SourceFile) (role : Role) (directive : Token) :
    Balance :=
  let (shapes, finding) := role.branch (file.tokenRange directive) balance.shapes
  ⟨shapes, balance.imbalances ++
    (finding.map fun finding => finding.located file.path (file.tokenRange directive)).toList⟩

/-- What is reported about a file that ends with this balance. -/
def Balance.close (balance : Balance) (file : SourceFile) : List Diagnostic :=
  balance.imbalances ++
    balance.shapes.reverse.map fun shape => Finding.missingEndif.located file.path shape.range

/-- How many words belong to a conditional directive. -/
def Role.wordsUsed (role : Role) (file : SourceFile) (directive : Token) (rest : List Token) :
    Nat :=
  match role with
  | .opens | .continues => operandLength file directive rest
  | .otherwise | .closes => 0

theorem imbalances_find (state : State) (path : Path) (range : Range) {finding : Finding}
    (name : finding.name = .unbalancedConditional) :
    (state.find path range finding).result.imbalances =
      state.result.imbalances ++ [finding.located path range] := by
  have kept : [finding.located path range].filter (fun d => d.name = .unbalancedConditional) =
      [finding.located path range] := List.filter_cons_of_pos (decide_eq_true name)
  rw [State.find, State.report, UnitReport.imbalances, List.filter_append, kept]
  rfl

theorem imbalances_find? (state : State) (path : Path) (range : Range) {finding : Option Finding}
    (name : ∀ found, finding = some found → found.name = .unbalancedConditional) :
    (state.find? path range finding).result.imbalances =
      state.result.imbalances ++ (finding.map fun found => found.located path range).toList := by
  cases finding with
  | none => exact (List.append_nil _).symm
  | some found => exact imbalances_find state path range (name found rfl)

theorem balance_afterBranch (progress : Progress) (file : SourceFile) (directive : Token)
    {role : Role} {step : List Chain × Option Finding}
    (shapes : (step.1.map Chain.shape, step.2) =
      role.branch (file.tokenRange directive) (progress.chains.map Chain.shape))
    (name : ∀ found, step.2 = some found → found.name = .unbalancedConditional) :
    (progress.afterBranch file directive step).balance =
      progress.balance.branch file role directive := by
  have shapes' : role.branch (file.tokenRange directive) progress.balance.shapes =
      (step.1.map Chain.shape, step.2) := shapes.symm
  rw [Balance.branch, shapes']
  exact congrArg (Balance.mk _) (imbalances_find? _ _ _ name)

theorem imbalances_close (progress : Progress) (file : SourceFile) :
    (progress.close file).result.imbalances = progress.balance.close file := by
  have all : ∀ (chains : List Chain) (state : State),
      (chains.foldl (fun state chain => state.find file.path chain.range .missingEndif)
        state).result.imbalances = state.result.imbalances ++
          chains.map fun chain => Finding.missingEndif.located file.path chain.range := by
    intro chains
    induction chains with
    | nil => exact fun state => (List.append_nil _).symm
    | cons chain rest ih =>
        intro state
        rw [List.foldl_cons, ih, imbalances_find _ _ _ rfl, List.append_assoc]
        rfl
  rw [Progress.close, all, Balance.close, Progress.balance, ← List.map_reverse, List.map_map]
  rfl

/-! ## Steps -/

/-- Whether a diagnostic is about anything but the balance of conditionals. -/
def Unrelated (d : Diagnostic) : Prop := d.name ≠ .unbalancedConditional

theorem admits_unrelated (file : SourceFile) : Admits Unrelated file := by
  intro d _ plain name
  rw [name] at plain
  cases plain

theorem Edits.imbalances {before after : State} {acts : List Act}
    (edits : Edits Unrelated before acts after) :
    after.result.imbalances = before.result.imbalances := by
  refine edits.filter_diagnostics _ (fun d structural => decide_eq_false fun name => ?_)
    fun d unrelated => decide_eq_false unrelated
  rw [name] at structural
  cases structural

/-- Names lead nowhere, so the file stays alone. -/
structure Context.Alone (context : Context) : Prop where
  unresolved : ∀ name directory, context.settings.sources.resolve name directory = none
  matched : context.compile?.isSome = context.acts?.isSome

theorem Context.Alone.follows {context : Context} (alone : context.Alone)
    (allowed : Diagnostic → Prop) : context.Follows allowed := by
  obtain ⟨settings, stack, compile?, acts?, file⟩ := context
  match compile?, acts?, alone with
  | some compile, some acts, alone =>
      intro name directory inner state resolved
      rw [alone.unresolved name directory] at resolved
      cases resolved
  | none, none, _ => trivial
  | some _, none, alone => exact nomatch alone.matched
  | none, some _, alone => exact nomatch alone.matched

/-- The directives among the acts have these tokens behind them. -/
def Before (acts : List Act) (behind : List Token) : Prop :=
  ∀ file directive rest, .direct file directive rest ∈ acts → rest = behind

theorem direct_not_mem_bodyActs {file : SourceFile} {site : Token} {name : String}
    {expand : String → Walk → Walk} {acts : String → Walk → List Act}
    (none : ∀ name walk file directive rest, .direct file directive rest ∉ acts name walk)
    {inner : SourceFile} {directive : Token} {rest : List Token} (words : List Token) (walk : Walk) :
    .direct inner directive rest ∉ bodyActs file site name expand acts words walk := by
  induction words generalizing walk with
  | nil => exact List.not_mem_nil
  | cons first rest ih =>
      rw [bodyActs]
      split
      · intro member
        cases member with
        | tail _ further => exact ih _ further
      · split
        · exact fun member => (List.mem_append.1 member).elim (none _ _ _ _ _) (ih _)
        · split <;> exact ih _

/-- No directive is acted on in the body of a macro. -/
theorem direct_not_mem_expandActs {file : SourceFile} {site : Token} (levels : Nat) (name : String)
    (walk : Walk) (inner : SourceFile) (directive : Token) (rest : List Token) :
    .direct inner directive rest ∉ expandActs file site levels name walk := by
  induction levels generalizing name walk inner directive rest with
  | zero => exact List.not_mem_nil
  | succ levels ih =>
      rw [expandActs]
      split
      · exact List.not_mem_nil
      · exact direct_not_mem_bodyActs ih _ walk

section Steps

variable {context : Context} {token : Token} (rest : List Token) (progress : Progress)

/-- A conditional directive does the same to the balance in any text, and uses up the same words. -/
theorem exists_passes_of_role {role : Role} (known : role? token = some role) :
    ∃ after, Passes context (token :: rest) progress []
      (rest.drop (role.wordsUsed context.file token rest)) after ∧
        after.balance = progress.balance.branch context.file role token := by
  obtain ⟨walk, chains⟩ := progress
  cases role with
  | opens =>
      refine ⟨_, passes_opens context rest walk chains known, ?_⟩
      have noted : (if Chain.isActive chains then walk.noteMissingName context.file token rest
          else walk).state.result.imbalances = walk.state.result.imbalances := by
        split
        · exact (edits_noteMissingName (admits_unrelated context.file) walk token rest).imbalances
        · rfl
      rw [Progress.balance, noted]
      exact congrArg (Balance.mk _) (List.append_nil _).symm
  | continues =>
      exact ⟨_, passes_continues context rest walk chains known,
        balance_afterBranch _ _ _ (Chain.shape_elsifBranch _ _ _)
          fun _ => Chain.name_elsifBranch⟩
  | otherwise =>
      exact ⟨_, passes_otherwise context rest walk chains known,
        balance_afterBranch _ _ _ (Chain.shape_elseBranch _ _) fun _ => Chain.name_elseBranch⟩
  | closes =>
      exact ⟨_, passes_closes context rest walk chains known,
        balance_afterBranch _ _ _ (Chain.shape_closeChain _ _) fun _ => Chain.name_closeChain⟩

variable (alone : context.Alone)

include alone

theorem imbalances_act (walk : Walk) :
    (context.act walk token rest).walk.state.result.imbalances = walk.state.result.imbalances :=
  (Context.edits_act (admits_unrelated context.file) (alone.follows _) walk).imbalances

theorem directiveActs_of_alone (state : State) :
    context.directiveActs state token rest = [.direct context.file token rest] := by
  have none (name : String) : context.includeActs state name = [] := by
    rw [Context.includeActs, State.opened?, alone.unresolved]
    cases context.acts? <;> rfl
  rw [Context.directiveActs]
  split
  · split
    · rw [none]
    · rfl
  · rfl

theorem before_act (walk : Walk) : Before (context.act walk token rest).acts rest := by
  intro file directive behind member
  rw [Context.act] at member
  split at member
  · split at member
    · exact absurd member (direct_not_mem_expandActs _ _ _ _ _ _)
    · rw [directiveActs_of_alone rest alone] at member
      cases List.mem_singleton.1 member
      rfl
  · cases List.mem_singleton.1 member

/-- A directive that takes its line is acted on where the text is active. -/
theorem direct_mem_act (takes : takesLine token = true) (walk : Walk) :
    .direct context.file token rest ∈ (context.act walk token rest).acts := by
  have directive : token.kind = .directive := by
    rw [takesLine, Bool.and_eq_true, decide_eq_true_iff] at takes
    exact takes.1
  have plain : ¬walk.state.isObjectLike token.text = true := fun use => by
    rw [takesLine_of_isObjectLike use] at takes
    cases takes
  rw [Context.act, if_pos directive, if_neg plain, directiveActs_of_alone rest alone]
  exact List.mem_singleton_self _

end Steps

/-! ## Stretches of a walk alone -/

/-- A walk gets from a token to some of those behind it, and acts on no directive but the one that
it begins with. -/
def Reaches (context : Context) (token : Token) (rest : List Token) (before : Progress)
    (left : List Token) (after : Progress) : Prop :=
  left <:+ rest ∧ ∃ acts, Passes context (token :: rest) before acts left after ∧ Before acts rest

/-- The conditional directives on the line of a directive are nested among themselves. -/
def NestedLine (file : SourceFile) (directive : Token) (rest : List Token) : Prop :=
  ∃ passage : Passage, passage.tokens = rest.take (lineLength file directive rest)

section Stretches

variable {context : Context} {token : Token} {rest left : List Token} {progress after : Progress}

theorem reaches_active (alone : context.Alone) (word : role? token = none)
    (active : Chain.isActive progress.chains = true) :
    Reaches context token rest progress (rest.drop (wordsUsed context.file token rest))
      ⟨(context.act progress.walk token rest).walk, progress.chains⟩ :=
  ⟨List.drop_suffix _ _, _, passes_active context rest word active,
    before_act rest alone progress.walk⟩

theorem reaches_inactive (word : role? token = none)
    (inactive : Chain.isActive progress.chains = false) :
    Reaches context token rest progress rest progress :=
  ⟨List.suffix_rfl, [], passes_inactive context rest word inactive, nofun⟩

/-- Where the text is not active, a line with nested conditionals may be skipped as well. -/
theorem reaches_line (word : role? token = none)
    (inactive : Chain.isActive progress.chains = false)
    (nested : NestedLine context.file token rest) :
    Reaches context token rest progress (rest.drop (lineLength context.file token rest))
      progress := by
  obtain ⟨passage, line⟩ := nested
  have passed := passage.passes_unselected context
    (rest.drop (lineLength context.file token rest)) progress.walk progress.chains inactive
  rw [line, List.take_append_drop] at passed
  exact ⟨List.drop_suffix _ _, [], (passes_inactive context rest word inactive).trans passed, nofun⟩

/-- A conditional directive does the same to the balance in any text, and uses up the same words. -/
theorem exists_reaches_of_role (context : Context) (rest : List Token) (progress : Progress)
    {role : Role} (known : role? token = some role) :
    ∃ after, Reaches context token rest progress
      (rest.drop (role.wordsUsed context.file token rest)) after ∧
        after.balance = progress.balance.branch context.file role token := by
  obtain ⟨after, passes, balance⟩ := exists_passes_of_role rest progress known
  exact ⟨after, ⟨List.drop_suffix _ _, [], passes, nofun⟩, balance⟩

theorem exists_reaches (alone : context.Alone) (token : Token) (rest : List Token)
    (progress : Progress) : ∃ left after, Reaches context token rest progress left after := by
  cases word : role? token with
  | some role =>
      obtain ⟨after, reaches, -⟩ := exists_reaches_of_role context rest progress word
      exact ⟨_, after, reaches⟩
  | none =>
      cases active : Chain.isActive progress.chains with
      | true => exact ⟨_, _, reaches_active alone word active⟩
      | false => exact ⟨_, _, reaches_inactive word active⟩

/-- Directives further on are acted on in what is left. -/
theorem Reaches.direct_mem_iff (reaches : Reaches context token rest progress left after)
    {file : SourceFile} {directive : Token} {behind : List Token}
    (further : behind.length < rest.length) :
    .direct file directive behind ∈ context.acts (token :: rest) progress ↔
      .direct file directive behind ∈ context.acts left after := by
  obtain ⟨-, acts, passes, first⟩ := reaches
  rw [passes.acts, List.mem_append]
  refine or_iff_right fun member => ?_
  rw [first _ _ _ member] at further
  exact Nat.lt_irrefl _ further

end Stretches

/-- What a walk acts on is among the tokens that it has before it. -/
theorem length_lt_of_direct_mem {context : Context} (alone : context.Alone) {file : SourceFile}
    {directive : Token} {behind : List Token} : (words : List Token) → (progress : Progress) →
    .direct file directive behind ∈ context.acts words progress → behind.length < words.length
  | [], progress, member => by
    rw [context.acts_nil] at member
    cases member
  | token :: rest, progress, member => by
    obtain ⟨left, after, shorter, acts, passes, first⟩ := exists_reaches alone token rest progress
    rw [passes.acts, List.mem_append] at member
    rcases member with here | further
    · rw [first _ _ _ here]
      exact Nat.lt_succ_self _
    · have ends : left.length ≤ rest.length := shorter.length_le
      have before := length_lt_of_direct_mem alone left after further
      rw [List.length_cons]
      omega
termination_by words => words.length
decreasing_by
  rw [List.length_cons]
  exact Nat.lt_succ_of_le shorter.length_le

/-! ## Two walks through one text -/

/-- Every directive is acted on in both walks or in neither, if it takes a line where conditionals
are not nested. -/
def Agree (context context' : Context) (words : List Token) (progress progress' : Progress) :
    Prop :=
  ∀ directive rest, directive :: rest <:+ words → takesLine directive = true →
    ¬NestedLine context.file directive rest →
    (.direct context.file directive rest ∈ context.acts words progress ↔
      .direct context.file directive rest ∈ context'.acts words progress')

section Two

variable {context context' : Context} {token : Token} {rest left : List Token}
variable {progress progress' after after' : Progress}

theorem Agree.symm (file : context'.file = context.file)
    (agree : Agree context context' (token :: rest) progress progress') :
    Agree context' context (token :: rest) progress' progress := by
  intro directive behind here takes unnested
  rw [file] at unnested ⊢
  exact (agree directive behind here takes unnested).symm

theorem Agree.further (agree : Agree context context' (token :: rest) progress progress')
    (reaches : Reaches context token rest progress left after)
    (reaches' : Reaches context' token rest progress' left after') :
    Agree context context' left after after' := by
  intro directive behind here takes unnested
  have suffix := here.trans reaches.1
  have further : behind.length < rest.length := suffix.length_le
  rw [← reaches.direct_mem_iff further, ← reaches'.direct_mem_iff further]
  exact agree directive behind (suffix.trans (List.suffix_cons token rest)) takes unnested

/-- Where one walk is active and the other is not, both get past a directive and its line. -/
theorem exists_reaches_line (alone : context.Alone) (alone' : context'.Alone)
    (file : context'.file = context.file)
    (agree : Agree context context' (token :: rest) progress progress')
    (word : role? token = none) (active : Chain.isActive progress.chains = true)
    (inactive : Chain.isActive progress'.chains = false) :
    Reaches context' token rest progress' (rest.drop (wordsUsed context.file token rest))
      progress' := by
  rw [wordsUsed]
  cases takes : takesLine token with
  | false => exact reaches_inactive word inactive
  | true =>
      rw [if_pos rfl, ← file]
      refine reaches_line word inactive (Classical.byContradiction fun unnested => ?_)
      -- Else the directive would be acted on in one of the walks only.
      rw [file] at unnested
      have here : .direct context.file token rest ∈ context.acts (token :: rest) progress := by
        rw [(passes_active context rest word active).acts]
        exact List.mem_append_left _ (direct_mem_act rest alone takes progress.walk)
      have there := (agree token rest List.suffix_rfl takes unnested).1 here
      rw [(passes_inactive context' rest word inactive).acts, List.nil_append] at there
      exact Nat.lt_irrefl _ (length_lt_of_direct_mem alone' _ _ there)

/-- **A step of two walks** keeps them together, with one balance. -/
theorem exists_reaches_both (alone : context.Alone) (alone' : context'.Alone)
    (file : context'.file = context.file)
    (agree : Agree context context' (token :: rest) progress progress')
    (same : progress.balance = progress'.balance) :
    ∃ left after after', Reaches context token rest progress left after ∧
      Reaches context' token rest progress' left after' ∧ after.balance = after'.balance := by
  have acted (context : Context) (alone : context.Alone) (progress : Progress) :
      Progress.balance ⟨(context.act progress.walk token rest).walk, progress.chains⟩ =
        progress.balance :=
    congrArg (Balance.mk _) (imbalances_act rest alone progress.walk)
  cases word : role? token with
  | some role =>
      obtain ⟨after, reaches, balance⟩ := exists_reaches_of_role context rest progress word
      obtain ⟨after', reaches', balance'⟩ := exists_reaches_of_role context' rest progress' word
      rw [file] at reaches' balance'
      exact ⟨_, after, after', reaches, reaches', by rw [balance, balance', same]⟩
  | none =>
      cases active : Chain.isActive progress.chains <;>
        cases active' : Chain.isActive progress'.chains
      · exact ⟨_, _, _, reaches_inactive word active, reaches_inactive word active', same⟩
      · have reaches := exists_reaches_line alone' alone file.symm (agree.symm file) word active'
          active
        exact ⟨_, _, _, reaches, reaches_active alone' word active',
          same.trans (acted _ alone' _).symm⟩
      · have reaches' := exists_reaches_line alone alone' file agree word active active'
        exact ⟨_, _, _, reaches_active alone word active, reaches', (acted _ alone _).trans same⟩
      · have reaches' : Reaches context' token rest progress' _ _ :=
          reaches_active alone' word active'
        rw [file] at reaches'
        exact ⟨_, _, _, reaches_active alone word active, reaches',
          (acted _ alone _).trans (same.trans (acted _ alone' _).symm)⟩

end Two

/-- **Two walks that agree end with one balance.** -/
theorem balance_walk {context context' : Context} (alone : context.Alone)
    (alone' : context'.Alone) (file : context'.file = context.file) : (words : List Token) →
    (progress progress' : Progress) → progress.balance = progress'.balance →
    Agree context context' words progress progress' →
    (context.walk words progress).balance = (context'.walk words progress').balance
  | [], progress, progress', same, _ => by rwa [Context.walk_nil, Context.walk_nil]
  | token :: rest, progress, progress', same, agree => by
    obtain ⟨left, after, after', reaches, reaches', same'⟩ :=
      exists_reaches_both alone alone' file agree same
    have agree' := agree.further reaches reaches'
    obtain ⟨shorter, acts, passes, -⟩ := reaches
    obtain ⟨-, acts', passes', -⟩ := reaches'
    rw [passes.walk, passes'.walk]
    exact balance_walk alone alone' file left after after' same' agree'
termination_by words => words.length
decreasing_by
  rw [List.length_cons]
  exact Nat.lt_succ_of_le shorter.length_le

/-! ## Files and units -/

theorem Context.alone_ofFile (settings : Settings)
    (unresolved : ∀ name directory, settings.sources.resolve name directory = none) (room : Nat)
    (stack : List Path) (file : SourceFile) : (Context.ofFile settings room stack file).Alone :=
  ⟨unresolved, by cases room <;> rfl⟩

theorem imbalances_finish (state : State) :
    state.finish.result.imbalances = state.result.imbalances := by
  rw [UnitReport.imbalances, State.finish]
  refine (filter_append_of_none _ fun d member => ?_).trans
    (filter_append_of_none _ fun d member => ?_)
  · obtain ⟨opened, -, rfl⟩ := List.mem_map.1 member
    rfl
  · obtain ⟨block, -, rfl⟩ := List.mem_map.1 member
    rfl

/-- How the compile of a unit goes along the text of its root, and where it begins. -/
theorem exists_walk_of_unit (settings : Settings) {root : Path} {text : String}
    (readable : settings.sources.text root = some text) :
    let file : SourceFile := ⟨root, text.toList⟩
    let context := Context.ofFile settings (openFileLimit - 1) [] file
    ∃ begun : Progress, begun.balance = ⟨[], []⟩ ∧
      unitActs settings root = context.acts (tokens file.text) begun ∧
      (compileUnit settings root).imbalances =
        (context.walk (tokens file.text) begun).balance.close file := by
  intro file context
  let opened := (State.initial root settings.macros).addFile root (settings.sources.revision root)
  have begun : (opened.begin file).result.imbalances = opened.result.imbalances :=
    (edits_begin (admits_unrelated file)).imbalances
  refine ⟨⟨⟨opened.begin file, .start⟩, []⟩, congrArg (Balance.mk []) begun, ?_, ?_⟩
  · rw [unitActs, readable]
    exact fileActs_eq settings _ [] file opened
  · rw [compileUnit, readable]
    show (compileFile settings _ [] file opened).finish.result.imbalances = _
    rw [imbalances_finish, compileFile_eq_close, imbalances_close]

end Unit

/-- **The balance of conditionals does not depend on the macros**, except where a directive that
takes its line is acted on under one table only and the conditionals on that line are not nested.
The root stands alone here: its includes lead nowhere. -/
theorem imbalances_compileUnit_eq {sources : Sources} {root : Path} {text : String}
    (severity : Severity) {macros macros' : MacroTable} (readable : sources.text root = some text)
    (unresolved : ∀ name directory, sources.resolve name directory = none)
    (agree : ∀ directive rest, directive :: rest <:+ tokens text.toList →
      Unit.takesLine directive = true → ¬Unit.NestedLine ⟨root, text.toList⟩ directive rest →
      (.direct ⟨root, text.toList⟩ directive rest ∈ unitActs ⟨sources, macros, severity⟩ root ↔
        .direct ⟨root, text.toList⟩ directive rest ∈
          unitActs ⟨sources, macros', severity⟩ root)) :
    (compileUnit ⟨sources, macros, severity⟩ root).imbalances =
      (compileUnit ⟨sources, macros', severity⟩ root).imbalances := by
  have alone (macros : MacroTable) := Unit.Context.alone_ofFile ⟨sources, macros, severity⟩
    unresolved (Unit.openFileLimit - 1) [] ⟨root, text.toList⟩
  obtain ⟨begun, balance, acts, imbalances⟩ :=
    Unit.exists_walk_of_unit ⟨sources, macros, severity⟩ readable
  obtain ⟨begun', balance', acts', imbalances'⟩ :=
    Unit.exists_walk_of_unit ⟨sources, macros', severity⟩ readable
  rw [acts, acts'] at agree
  rw [imbalances, imbalances']
  rw [Unit.balance_walk (alone macros) (alone macros') rfl (tokens text.toList) begun begun'
    (balance.trans balance'.symm) agree]

/-- A root with this text, whose includes lead nowhere. -/
def loneSources (text : String) : Sources :=
  { text := fun path => if path == .ofString "/p/top.sv" then some text else none
    resolve := fun _ _ => none
    revision := fun _ => none }

/-- A definition that is acted on under one table only may hold a whole chain. An `else` behind is
reported under both. -/
theorem imbalances_compileUnit_eq_of_inner_chain :
    let text := "`ifdef A\n`define B `ifdef C `endif\n`endif\n`else\n"
    let root : Path := .ofString "/p/top.sv"
    let compile (macros : MacroTable) := compileUnit ⟨loneSources text, macros, .warning⟩ root
    (compile ⟨[("A", "1")]⟩).imbalances = (compile .empty).imbalances ∧
      (compile .empty).imbalances.map (·.message) = ["`else without matching `ifdef"] := by
  intro text root compile
  have only : ∀ words ∈ (tokens text.toList).tails, words.head?.any Unit.takesLine = true →
      words = ⟨.directive, "define", 9, 16⟩ :: ⟨.identifier, "B", 17, 18⟩ ::
        ⟨.directive, "ifdef", 19, 25⟩ :: ⟨.identifier, "C", 26, 27⟩ ::
        ⟨.directive, "endif", 28, 34⟩ :: ⟨.directive, "endif", 35, 41⟩ ::
        [⟨.directive, "else", 42, 47⟩] := by
    decide +kernel
  refine ⟨imbalances_compileUnit_eq .warning rfl (fun _ _ => rfl) ?_, by decide +kernel⟩
  intro directive rest here takes unnested
  cases only _ ((List.mem_tails _ _).2 here) takes
  exact absurd ⟨.word ⟨.identifier, "B", 17, 18⟩ (by decide)
    (.chain ⟨.directive, "ifdef", 19, 25⟩ (by decide)
      (.word ⟨.identifier, "C", 26, 27⟩ (by decide) .done)
      (.close ⟨.directive, "endif", 28, 34⟩ (by decide)) .done), by decide +kernel⟩ unnested

/-- **Macros may change the balance.** Only where it is acted on does a definition take the `endif`
in its body. -/
theorem imbalances_compileUnit_ne :
    let text := "`ifdef A\n`define B `endif\n`endif\n"
    let root : Path := .ofString "/p/top.sv"
    let compile (macros : MacroTable) := compileUnit ⟨loneSources text, macros, .warning⟩ root
    (compile ⟨[("A", "1")]⟩).imbalances.map (·.message) = [] ∧
      (compile .empty).imbalances.map (·.message) = ["`endif without matching `ifdef"] ∧
      (compile ⟨[("A", "1")]⟩).imbalances ≠ (compile .empty).imbalances := by
  intro text root compile
  have active : (compile ⟨[("A", "1")]⟩).imbalances.map (·.message) = [] := by decide +kernel
  have inactive : (compile .empty).imbalances.map (·.message) =
      ["`endif without matching `ifdef"] := by decide +kernel
  refine ⟨active, inactive, fun same => ?_⟩
  rw [same, inactive] at active
  cases active

end SvServer
