import SvServer.Proofs.Brackets
import SvServer.Proofs.Unit.Edits

/-!
# Blocks and delimiters of a unit

The active words of a unit open and close blocks, in the order in which they are checked, across the
files it includes and the macros it expands; and so do its delimiters. The structure checks keep a
stack of either kind. They report something if and only if these words are not well bracketed, and
the reports about blocks account for every one of them.
-/

namespace SvServer

open Hdl

/-- Whether a diagnostic is about blocks. -/
def Diagnostic.isAboutBlocks (d : Diagnostic) : Bool :=
  d.name = .unterminatedBlock || d.name = .unexpectedBlockEnd

/-- Whether a diagnostic is about delimiters. -/
def Diagnostic.isAboutDelimiters (d : Diagnostic) : Bool := d.name = .unbalancedDelimiter

theorem Diagnostic.not_isAbout_of_not_isStructural {d : Diagnostic}
    (other : d.name.isStructural = false) :
    d.isAboutBlocks = false ∧ d.isAboutDelimiters = false := by
  cases name : d.name <;> simp_all [isAboutBlocks, isAboutDelimiters, DiagnosticName.isStructural]

namespace Unit

/-! ## Brackets among the acts -/

/-- A word that closes a block. -/
structure BlockEnd where
  word : String
  path : Path
  range : Range

/-- The report about a block that is never closed, where it begins. -/
def PendingBlock.report (block : PendingBlock) : Diagnostic :=
  block.unterminated.located block.path block.range

/-- The report about a word that closes no block. -/
def BlockEnd.report (ending : BlockEnd) : Diagnostic :=
  (Finding.unexpectedBlockEnd ending.word).located ending.path ending.range

/-- What a token does to the blocks: a keyword that closes one, or one that opens one in its
position. -/
def blockBracket? (file : SourceFile) (token : Token) (rest : List Token) (look : Lookback) :
    Option (Bracket PendingBlock BlockEnd) :=
  if token.kind ≠ .identifier then none
  else if isBlockCloser token.text then
    some (.closer ⟨token.text, file.path, file.tokenRange token⟩)
  else match blockClosers? token.text with
    | some closers =>
      if opensBlock token.text look (rest.head?.map Token.text) then
        some (.opener ⟨token.text, closers, DesignElement.ofOpener? token.text, file.path,
          file.tokenRange token⟩)
      else none
    | none => none

/-- What a token does to the delimiters. -/
def delimiterBracket? (file : SourceFile) (token : Token) :
    Option (Bracket PendingDelimiter PendingDelimiter) :=
  match token.kind with
  | .opening delimiter => some (.opener ⟨delimiter, file.path, file.tokenRange token⟩)
  | .closing delimiter => some (.closer ⟨delimiter, file.path, file.tokenRange token⟩)
  | _ => none

/-- What an act does to the blocks. -/
def Act.block? : Act → Option (Bracket PendingBlock BlockEnd)
  | .check file token rest look => blockBracket? file token rest look
  | .direct _ _ _ => none

/-- What an act does to the delimiters. -/
def Act.delimiter? : Act → Option (Bracket PendingDelimiter PendingDelimiter)
  | .check file token _ _ => delimiterBracket? file token
  | .direct _ _ _ => none

/-! ## The checks -/

/-- A word closes a block if it is among the closers of the block. -/
def blockCloses (block : PendingBlock) (ending : BlockEnd) : Bool :=
  block.closers.contains ending.word

def blockChecker : Checker PendingBlock BlockEnd Diagnostic :=
  drain blockCloses PendingBlock.report BlockEnd.report

/-- A delimiter closes one of its kind. -/
def delimiterCloses (opened closing : PendingDelimiter) : Bool :=
  opened.delimiter = closing.delimiter

/-- On a mismatch a delimiter of the kind is looked for further out, to be closed with all inside of
it; without one all stays open. -/
def delimiterChecker : Checker PendingDelimiter PendingDelimiter Diagnostic where
  closes := delimiterCloses
  recover stack closing :=
    match stack with
    | [] =>
      ⟨[], [(Finding.unexpectedDelimiter closing.delimiter).located closing.path closing.range]⟩
    | innermost :: outer =>
      let mismatch := (Finding.mismatchedDelimiter innermost.delimiter closing.delimiter).located
        closing.path closing.range
      match outer.dropWhile fun opened => opened.delimiter ≠ closing.delimiter with
      | [] => ⟨innermost :: outer, [mismatch]⟩
      | _ :: remaining => ⟨remaining, [mismatch]⟩
  unclosed opened := (Finding.unclosedDelimiter opened.delimiter).located opened.path opened.range
  complains stack closing _ := by
    cases stack with
    | nil => exact List.cons_ne_nil _ _
    | cons innermost outer =>
        dsimp only
        split <;> exact List.cons_ne_nil _ _

/-- The blocks that are open, with what was reported about blocks. -/
def State.checkedBlocks (state : State) : Checked PendingBlock Diagnostic :=
  ⟨state.blocks, state.result.diagnostics.filter Diagnostic.isAboutBlocks⟩

/-- The delimiters that are open, with what was reported about delimiters. -/
def State.checkedDelimiters (state : State) : Checked PendingDelimiter Diagnostic :=
  ⟨state.delimiters, state.result.diagnostics.filter Diagnostic.isAboutDelimiters⟩

theorem drop_length_takeWhile {α : Type} (p : α → Bool) (list : List α) :
    list.drop (list.takeWhile p).length = list.dropWhile p := by
  have parts : list.takeWhile p ++ list.dropWhile p = list := List.takeWhile_append_dropWhile
  rw [← congrArg (List.drop (list.takeWhile p).length) parts, List.drop_left]

theorem filter_reports (blocks : List PendingBlock) :
    (blocks.map PendingBlock.report).filter Diagnostic.isAboutBlocks =
      blocks.map PendingBlock.report :=
  List.filter_eq_self.2 fun d member => by
    obtain ⟨block, -, rfl⟩ := List.mem_map.1 member
    rfl

section Inspect

variable (state : State) (file : SourceFile) (token : Token) (rest : List Token) (look : Lookback)

theorem checkedBlocks_closeBlock : (state.closeBlock file token).checkedBlocks =
    blockChecker.step state.checkedBlocks
      (.closer ⟨token.text, file.path, file.tokenRange token⟩) := by
  rw [blockChecker, step_drain, State.closeBlock]
  simp only [drop_length_takeWhile, blockCloses, State.checkedBlocks]
  cases state.blocks.dropWhile fun block => !block.closers.contains token.text with
  | nil => exact congrArg (Checked.mk _) (List.filter_append ..)
  | cons closed outer =>
      refine congrArg (Checked.mk outer) ((List.filter_append ..).trans ?_)
      rw [← filter_reports]
      rfl

theorem checkedBlocks_openBlock (closers : List String) :
    (state.openBlock file token closers rest).checkedBlocks =
      blockChecker.step state.checkedBlocks (.opener ⟨token.text, closers,
        DesignElement.ofOpener? token.text, file.path, file.tokenRange token⟩) := by
  obtain ⟨declarations, opened⟩ := exists_openBlock_eq state file token closers rest
  rw [opened]
  rfl

theorem checkedBlocks_closeDelimiter (delimiter : Delimiter) :
    (state.closeDelimiter file token delimiter).checkedBlocks = state.checkedBlocks := by
  have kept (expected : Finding) (other : (expected.located file.path
      (file.tokenRange token)).isAboutBlocks = false) :
      (state.find file.path (file.tokenRange token) expected).checkedBlocks = state.checkedBlocks :=
    congrArg (Checked.mk _) (filter_append_of_none _ fun d member => by
      rwa [List.mem_singleton.1 member])
  rcases state.closeDelimiter_cases file token delimiter with
    same | ⟨_, _, -, same⟩ | ⟨_, _, -, same⟩ <;> rw [same]
  · exact kept _ rfl
  · rfl
  · exact kept _ rfl

/-- **A check treats blocks as the checker does.** -/
theorem checkedBlocks_inspect : (state.inspect file token rest look).checkedBlocks =
    blockChecker.step? state.checkedBlocks (blockBracket? file token rest look) := by
  rw [blockBracket?, State.inspect]
  cases kind : token.kind with
  | identifier =>
      simp only [ne_eq, not_true_eq_false, if_false, State.word]
      split
      · exact checkedBlocks_closeBlock state file token
      · cases blockClosers? token.text with
        | some closers =>
            dsimp only
            split
            · exact checkedBlocks_openBlock state file token rest closers
            · rfl
        | none =>
            dsimp only
            split <;> rfl
  | closing delimiter => exact checkedBlocks_closeDelimiter state file token delimiter
  | opening | directive | string | other => rfl

theorem checkedDelimiters_closeDelimiter (delimiter : Delimiter) :
    (state.closeDelimiter file token delimiter).checkedDelimiters =
      delimiterChecker.step state.checkedDelimiters
        (.closer ⟨delimiter, file.path, file.tokenRange token⟩) := by
  obtain ⟨definitions, blocks, delimiters, result⟩ := state
  rw [State.closeDelimiter, Checker.step]
  cases delimiters with
  | nil => exact congrArg (Checked.mk _) (List.filter_append ..)
  | cons innermost outer =>
      simp only [State.checkedDelimiters, delimiterChecker, delimiterCloses, List.head?_cons,
        Option.any_some, decide_eq_true_iff]
      by_cases same : innermost.delimiter = delimiter
      · rw [if_pos same, if_pos same]
        rfl
      · rw [if_neg same, if_neg same]
        cases outer.dropWhile fun opened => decide (opened.delimiter ≠ delimiter) with
        | nil => exact congrArg (Checked.mk _) (List.filter_append ..)
        | cons closed remaining => exact congrArg (Checked.mk _) (List.filter_append ..)

theorem checkedDelimiters_word :
    (state.word file token rest look).checkedDelimiters = state.checkedDelimiters := by
  rw [State.word]
  split
  · rcases state.closeBlock_cases file token with
      same | ⟨skipped, closed, outer, -, same⟩ <;> rw [same]
    · exact congrArg (Checked.mk _) (filter_append_of_none _ fun d member => by
        rw [List.mem_singleton.1 member]
        rfl)
    · refine congrArg (Checked.mk _) (filter_append_of_none _ fun d member => ?_)
      obtain ⟨block, -, rfl⟩ := List.mem_map.1 member
      rfl
  · split
    · split
      · obtain ⟨declarations, opened⟩ := exists_openBlock_eq state file token _ rest
        rw [opened]
        rfl
      · rfl
    · split <;> rfl

/-- **A check treats delimiters as the checker does.** -/
theorem checkedDelimiters_inspect : (state.inspect file token rest look).checkedDelimiters =
    delimiterChecker.step? state.checkedDelimiters (delimiterBracket? file token) := by
  rw [delimiterBracket?, State.inspect]
  cases kind : token.kind with
  | identifier => exact checkedDelimiters_word state file token rest look
  | closing delimiter => exact checkedDelimiters_closeDelimiter state file token delimiter
  | opening | directive | string | other => rfl

end Inspect

/-! ## Acts -/

section Acts

variable {allowed : Diagnostic → Prop} {before after : State} {acts : List Act}

/-- **What only the checks change** follows from the acts, if a check treats it as a checker
does. -/
theorem Edits.foldl_view {α β : Type} {checker : Checker α β Diagnostic}
    (view : State → Checked α Diagnostic) (bracket? : Act → Option (Bracket α β))
    (checks : ∀ state file token rest look, view (state.inspect file token rest look) =
      checker.step? (view state) (bracket? (.check file token rest look)))
    (directs : ∀ file directive rest, bracket? (.direct file directive rest) = none)
    (reports : ∀ state d, allowed d → view (state.report d) = view state)
    (defines : ∀ state definitions, view { state with definitions := definitions } = view state)
    (reads : ∀ state path revision, view (state.addFile path revision) = view state)
    (misses : ∀ state name, view (state.addMissing name) = view state)
    (edits : Edits allowed before acts after) :
    view after = (acts.filterMap bracket?).foldl checker.step (view before) := by
  induction edits with
  | refl => rfl
  | check done file token rest look ih =>
      rw [checker.foldl_filterMap_concat, checks, ih]
  | direct done file directive rest ih =>
      rw [checker.foldl_filterMap_concat, directs, ih]
      rfl
  | report done d admitted ih => rw [reports _ d admitted, ih]
  | define _ definitions ih => rw [defines, ih]
  | read _ path revision ih => rw [reads, ih]
  | miss _ name ih => rw [misses, ih]

/-- **Along acts blocks are treated as the checker does.** -/
theorem Edits.checkedBlocks (edits : Edits (·.name.isStructural = false) before acts after) :
    after.checkedBlocks =
      (acts.filterMap Act.block?).foldl blockChecker.step before.checkedBlocks := by
  refine edits.foldl_view State.checkedBlocks Act.block? checkedBlocks_inspect (fun _ _ _ => rfl)
    (fun state d other => congrArg (Checked.mk _) (filter_append_of_none _ ?_))
    (fun _ _ => rfl) (fun _ _ _ => rfl) (fun _ _ => rfl)
  exact List.forall_mem_singleton.2 (Diagnostic.not_isAbout_of_not_isStructural other).1

/-- **Along acts delimiters are treated as the checker does.** -/
theorem Edits.checkedDelimiters (edits : Edits (·.name.isStructural = false) before acts after) :
    after.checkedDelimiters =
      (acts.filterMap Act.delimiter?).foldl delimiterChecker.step before.checkedDelimiters := by
  refine edits.foldl_view State.checkedDelimiters Act.delimiter?
    (fun state file token rest look => checkedDelimiters_inspect state file token rest look)
    (fun _ _ _ => rfl)
    (fun state d other => congrArg (Checked.mk _) (filter_append_of_none _ ?_))
    (fun _ _ => rfl) (fun _ _ _ => rfl) (fun _ _ => rfl)
  exact List.forall_mem_singleton.2 (Diagnostic.not_isAbout_of_not_isStructural other).2

end Acts

/-! ## Units -/

theorem blocks_finish (state : State) :
    state.finish.result.diagnostics.filter Diagnostic.isAboutBlocks =
      blockChecker.finish state.checkedBlocks := by
  rw [State.finish]
  refine (filter_append_of_none _ fun d member => ?_).trans ?_
  · obtain ⟨opened, -, rfl⟩ := List.mem_map.1 member
    rfl
  · rw [List.filter_append]
    exact congrArg (_ ++ ·) (filter_reports state.blocks.reverse)

theorem delimiters_finish (state : State) :
    state.finish.result.diagnostics.filter Diagnostic.isAboutDelimiters =
      delimiterChecker.finish state.checkedDelimiters := by
  have reports : (state.delimiters.reverse.map delimiterChecker.unclosed).filter
      Diagnostic.isAboutDelimiters = state.delimiters.reverse.map delimiterChecker.unclosed :=
    List.filter_eq_self.2 fun d member => by
      obtain ⟨opened, -, rfl⟩ := List.mem_map.1 member
      rfl
  have others : (state.result.diagnostics ++ state.blocks.reverse.map PendingBlock.report).filter
      Diagnostic.isAboutDelimiters = state.checkedDelimiters.complaints :=
    filter_append_of_none _ fun d member => by
      obtain ⟨block, -, rfl⟩ := List.mem_map.1 member
      rfl
  rw [Checker.finish, ← others]
  exact (List.filter_append ..).trans (congrArg (_ ++ ·) reports)

end Unit

/-- The blocks that the active words of a unit open and close, in order. -/
def unitBlocks (settings : Unit.Settings) (root : Path) :
    List (Bracket Unit.PendingBlock Unit.BlockEnd) :=
  (unitActs settings root).filterMap Unit.Act.block?

/-- The delimiters that a unit opens and closes, in order. -/
def unitDelimiters (settings : Unit.Settings) (root : Path) :
    List (Bracket Unit.PendingDelimiter Unit.PendingDelimiter) :=
  (unitActs settings root).filterMap Unit.Act.delimiter?

/-- What a unit reports about structure is what the two checkers say. -/
theorem checked_compileUnit (settings : Unit.Settings) (root : Path) :
    (compileUnit settings root).diagnostics.filter Diagnostic.isAboutBlocks =
        Unit.blockChecker.check (unitBlocks settings root) ∧
      (compileUnit settings root).diagnostics.filter Diagnostic.isAboutDelimiters =
        Unit.delimiterChecker.check (unitDelimiters settings root) := by
  cases readable : settings.sources.text root with
  | none =>
      rw [compileUnit, unitBlocks, unitDelimiters, unitActs, readable]
      exact ⟨rfl, rfl⟩
  | some text =>
      have edits := Unit.edits_compileFile settings (Unit.openFileLimit - 1) [] ⟨root, text.toList⟩
        ((Unit.State.initial root settings.macros).addFile root (settings.sources.revision root))
        (fun (d : Diagnostic) (other : d.name.isStructural = false) => other)
      rw [compileUnit, unitBlocks, unitDelimiters, unitActs, readable]
      refine ⟨(Unit.blocks_finish _).trans ?_, (Unit.delimiters_finish _).trans ?_⟩
      · rw [edits.checkedBlocks]
        rfl
      · rw [edits.checkedDelimiters]
        rfl

/-- **The structure checks accept exactly balanced units.** Every block is closed by one later word
that names it, or reported once where it begins; and every word that closes blocks closes one, or is
reported once. Nothing is reported about blocks iff they are well bracketed, and nothing about
delimiters iff those are. -/
theorem balanced_compileUnit (settings : Unit.Settings) (root : Path) :
    (∃ account : Account Unit.blockCloses (unitBlocks settings root),
      (account.closed.map (fun pair => pair.1.2) ++ account.unclosed.map Prod.snd).Nodup ∧
      (account.closed.map (fun pair => pair.2.2) ++ account.stray.map Prod.snd).Nodup ∧
      ((compileUnit settings root).diagnostics.filter Diagnostic.isAboutBlocks).Perm
        (account.unclosed.map (fun entry => entry.1.report) ++
          account.stray.map fun entry => entry.1.report)) ∧
      ((compileUnit settings root).diagnostics.filter Diagnostic.isAboutBlocks = [] ↔
        WellBracketed Unit.blockCloses (unitBlocks settings root)) ∧
      ((compileUnit settings root).diagnostics.filter Diagnostic.isAboutDelimiters = [] ↔
        WellBracketed Unit.delimiterCloses (unitDelimiters settings root)) := by
  obtain ⟨blocks, delimiters⟩ := checked_compileUnit settings root
  obtain ⟨account, reported⟩ := exists_account Unit.blockCloses Unit.PendingBlock.report
    Unit.BlockEnd.report (unitBlocks settings root)
  rw [blocks, delimiters]
  exact ⟨⟨account, account.nodup_openers, account.nodup_closers, reported⟩,
    Unit.blockChecker.check_eq_nil_iff _, Unit.delimiterChecker.check_eq_nil_iff _⟩

end SvServer
