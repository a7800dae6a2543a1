import SvServer.Unit.State
import SvServer.Unit.Header

/-!
The structure checks: which blocks and delimiters the active tokens open and close, which design
units they declare and which they instantiate.
-/

namespace SvServer.Unit

open Hdl

/-- The texts of the two tokens before the current one, nearest first. -/
structure Lookback where
  last : Option String
  beforeLast : Option String
deriving DecidableEq, Repr

namespace Lookback

/-- Nothing has been read yet. -/
def start : Lookback := ⟨none, none⟩

/-- After one more token. -/
def push (look : Lookback) (token : Token) : Lookback := ⟨some token.text, look.last⟩

/-- Whether a word here begins a new statement or item. -/
def startsItem (look : Lookback) : Bool :=
  match look.last with
  | none => true
  | some word => [";", ")", "begin", "end", "generate", "endgenerate", "else"].contains word

/-- Whether the last token is one of the given words. -/
def isAfter (look : Lookback) (words : List String) : Bool :=
  match look.last with
  | none => false
  | some word => words.contains word

end Lookback

/-- Whether a keyword that can open a block opens one in its position. -/
def opensBlock (word : String) (look : Lookback) (next : Option String) : Bool :=
  match word with
  | "interface" => !look.isAfter ["virtual"] && next ≠ some "class"
  | "class" =>
    !look.isAfter ["typedef"] &&
      !(look.isAfter ["interface"] && look.beforeLast == some "typedef")
  | "fork" => !look.isAfter ["wait", "disable"]
  | "property" | "sequence" => !look.isAfter ["assert", "assume", "cover", "expect", "restrict"]
  | "module" | "macromodule" | "program" | "primitive" => !look.isAfter ["extern"]
  | _ => true

/-- The innermost block that is not transparent decides whether instances may stand here. -/
def holdsInstances (blocks : List PendingBlock) : Bool :=
  match blocks.find? fun block => !isTransparentBlock block.opener with
  | some block => block.designElement.any DesignElement.holdsInstances
  | none => false

namespace State

/-- Records the design element whose keyword the tokens follow. -/
def declare (state : State) (file : SourceFile) (kind : DesignElement) (rest : List Token) :
    State :=
  match declaredName? nameReach rest with
  | none => state
  | some (name, header) =>
    if isReserved name.text then state
    else
      let declaration : Declaration :=
        ⟨name.text, kind, file.path, file.tokenRange name, parametersOf header, portsOf header⟩
      { state with result :=
          { state.result with declarations := state.result.declarations ++ [declaration] } }

/-- Opens a block. A design element is declared only at the outermost level of design elements. -/
def openBlock (state : State) (file : SourceFile) (token : Token) (closers : List String)
    (rest : List Token) : State :=
  let designElement := DesignElement.ofOpener? token.text
  let declared := match designElement with
    | some kind =>
      if state.blocks.any fun block => block.designElement.isSome then state
      else state.declare file kind rest
    | none => state
  { declared with
    blocks :=
      ⟨token.text, closers, designElement, file.path, file.tokenRange token⟩ :: declared.blocks }

/-- Closes the innermost block that the word can close. The blocks inside of it that are still open
are reported where they begin, outermost first. -/
def closeBlock (state : State) (file : SourceFile) (token : Token) : State :=
  let closes := fun (block : PendingBlock) => block.closers.contains token.text
  let skipped := state.blocks.takeWhile fun block => !closes block
  match state.blocks.drop skipped.length with
  | [] => state.find file.path (file.tokenRange token) (.unexpectedBlockEnd token.text)
  | _ :: outer =>
    let missing := skipped.reverse.map fun block =>
      block.unterminated.located block.path block.range
    { state with
      blocks := outer
      result := { state.result with diagnostics := state.result.diagnostics ++ missing } }

/-- Opens a delimiter. -/
def openDelimiter (state : State) (file : SourceFile) (token : Token) (delimiter : Delimiter) :
    State :=
  { state with delimiters := ⟨delimiter, file.path, file.tokenRange token⟩ :: state.delimiters }

/-- Closes a delimiter. On a mismatch the innermost opener of the same kind, if there is one, is
closed together with all inside of it. -/
def closeDelimiter (state : State) (file : SourceFile) (token : Token) (delimiter : Delimiter) :
    State :=
  match state.delimiters with
  | [] => state.find file.path (file.tokenRange token) (.unexpectedDelimiter delimiter)
  | innermost :: outer =>
    if innermost.delimiter = delimiter then { state with delimiters := outer }
    else
      let reported := state.find file.path (file.tokenRange token)
        (.mismatchedDelimiter innermost.delimiter delimiter)
      match outer.dropWhile fun opened => opened.delimiter ≠ delimiter with
      | [] => reported
      | _ :: remaining => { reported with delimiters := remaining }

/-- Checks one active word. -/
def word (state : State) (file : SourceFile) (token : Token) (rest : List Token) (look : Lookback) :
    State :=
  if isBlockCloser token.text then state.closeBlock file token
  else match blockClosers? token.text with
    | some closers =>
      if opensBlock token.text look (rest.head?.map Token.text) then
        state.openBlock file token closers rest
      else state
    | none =>
      if !isReserved token.text && look.startsItem && holdsInstances state.blocks &&
          isInstantiation rest then
        { state with result :=
            { state.result with instantiations :=
                state.result.instantiations ++ [⟨token.text, file.path, file.tokenRange token⟩] } }
      else state

/-- Checks one active token. -/
def inspect (state : State) (file : SourceFile) (token : Token) (rest : List Token)
    (look : Lookback) : State :=
  match token.kind with
  | .identifier => state.word file token rest look
  | .opening delimiter => state.openDelimiter file token delimiter
  | .closing delimiter => state.closeDelimiter file token delimiter
  | .directive | .string | .other => state

/-! What a check can come to. -/

variable (state : State) (file : SourceFile) (token : Token) (rest : List Token)

/-- A block that is opened is put on top of those that are open; at the outermost level of design
elements it may be declared. -/
theorem openBlock_cases (closers : List String) :
    let opened : PendingBlock :=
      ⟨token.text, closers, DesignElement.ofOpener? token.text, file.path, file.tokenRange token⟩
    state.openBlock file token closers rest = { state with blocks := opened :: state.blocks } ∨
    ∃ kind name header, DesignElement.ofOpener? token.text = some kind ∧
      declaredName? nameReach rest = some (name, header) ∧ isReserved name.text = false ∧
      state.openBlock file token closers rest = { state with
        blocks := opened :: state.blocks
        result := { state.result with declarations := state.result.declarations ++
          [⟨name.text, kind, file.path, file.tokenRange name, parametersOf header,
            portsOf header⟩] } } := by
  intro opened
  simp only [openBlock, opened]
  cases DesignElement.ofOpener? token.text with
  | none => exact .inl rfl
  | some kind =>
      dsimp only
      split
      · exact .inl rfl
      · simp only [declare]
        split
        · exact .inl rfl
        · rename_i name header found
          split
          · exact .inl rfl
          · rename_i free
            exact .inr ⟨kind, name, header, rfl, found, (Bool.not_eq_true _).mp free, rfl⟩

/-- A block is closed together with those inside of it, or there is none to close. -/
theorem closeBlock_cases :
    state.closeBlock file token =
        state.find file.path (file.tokenRange token) (.unexpectedBlockEnd token.text) ∨
    ∃ skipped closed outer, state.blocks = skipped ++ closed :: outer ∧
      state.closeBlock file token = { state with
        blocks := outer
        result := { state.result with diagnostics := state.result.diagnostics ++
          (skipped.reverse.map fun block => block.unterminated.located block.path block.range) } } := by
  rw [closeBlock]
  dsimp only
  split
  case h_1 => exact .inl rfl
  case h_2 closed outer left =>
    have whole : ∀ skipped : List PendingBlock, skipped <+: state.blocks →
        state.blocks.drop skipped.length = closed :: outer →
        state.blocks = skipped ++ closed :: outer := by
      rintro skipped ⟨behind, split⟩ left
      rw [← split, List.drop_left] at left
      rw [← split, left]
    exact .inr ⟨_, closed, outer, whole _ (List.takeWhile_prefix _) left, rfl⟩

/-- A delimiter goes with the innermost one, or else one further out may be closed with all inside of
it. -/
theorem closeDelimiter_cases (delimiter : Delimiter) :
    state.closeDelimiter file token delimiter =
        state.find file.path (file.tokenRange token) (.unexpectedDelimiter delimiter) ∨
    (∃ innermost outer, state.delimiters = innermost :: outer ∧
      state.closeDelimiter file token delimiter = { state with delimiters := outer }) ∨
    ∃ innermost remaining, remaining <:+ state.delimiters ∧
      state.closeDelimiter file token delimiter =
        { state.find file.path (file.tokenRange token)
            (.mismatchedDelimiter innermost delimiter) with delimiters := remaining } := by
  rw [closeDelimiter]
  split
  case h_1 => exact .inl rfl
  case h_2 innermost outer within =>
    split
    case isTrue => exact .inr (.inl ⟨innermost, outer, within, rfl⟩)
    case isFalse =>
      dsimp only
      split
      case h_1 => exact .inr (.inr ⟨_, state.delimiters, List.suffix_rfl, rfl⟩)
      case h_2 closed remaining found =>
        refine .inr (.inr ⟨_, remaining, ?_, rfl⟩)
        rw [within]
        exact (List.suffix_cons closed remaining).trans
          (found ▸ (List.dropWhile_suffix _).trans (List.suffix_cons innermost outer))

/-- **What the check of a token does**: it closes or opens a block, notes an instance, opens or closes
a delimiter, or does nothing. -/
theorem inspect_cases (look : Lookback) :
    state.inspect file token rest look = state ∨
    (token.kind = .identifier ∧ (state.inspect file token rest look = state.closeBlock file token ∨
      (∃ closers, blockClosers? token.text = some closers ∧
        state.inspect file token rest look = state.openBlock file token closers rest) ∨
      state.inspect file token rest look = { state with result :=
        { state.result with instantiations :=
          state.result.instantiations ++ [⟨token.text, file.path, file.tokenRange token⟩] } })) ∨
    ∃ delimiter, state.inspect file token rest look = state.openDelimiter file token delimiter ∨
      state.inspect file token rest look = state.closeDelimiter file token delimiter := by
  rw [inspect]
  split
  case h_1 identifier =>
    rw [word]
    split
    · exact .inr (.inl ⟨identifier, .inl rfl⟩)
    · split
      · rename_i closers known
        split
        · exact .inr (.inl ⟨identifier, .inr (.inl ⟨closers, known, rfl⟩)⟩)
        · exact .inl rfl
      · split
        · exact .inr (.inl ⟨identifier, .inr (.inr rfl)⟩)
        · exact .inl rfl
  case h_2 delimiter _ => exact .inr (.inr ⟨delimiter, .inl rfl⟩)
  case h_3 delimiter _ => exact .inr (.inr ⟨delimiter, .inr rfl⟩)
  all_goals exact .inl rfl

end State

end SvServer.Unit
