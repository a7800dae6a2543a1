import SvServer.Proofs.Unit.Acts

/-!
# A unit compile without its places

The structure checks note where blocks, delimiters, declarations and findings stand, and never ask
for it. `State.outline` leaves the places out. What a check does to the outline depends on the kind
and the text of the token, on the outline, and on what the token sees of its surroundings: the
tokens before it (`Lookback`) and three questions about those ahead (`Outlook`).
-/

namespace SvServer

open Hdl

/-! ## Reserved words -/

theorem isReserved_of_isBlockCloser {word : String} (h : isBlockCloser word = true) :
    isReserved word = true := by
  have all : ∀ word ∈ blockClosers, isReserved word = true := by decide
  exact all word (List.contains_iff_mem.1 h)

theorem isReserved_of_blockClosers? {word : String} {closers : List String}
    (h : blockClosers? word = some closers) : isReserved word = true := by
  unfold blockClosers? at h
  split at h <;> first | decide | exact absurd h nofun

namespace Unit

/-! ## Tokens and what they see -/

/-- The kind and the text of a token. -/
def plain (token : Token) : TokenKind × String := (token.kind, token.text)

section Facts

variable {δ : Type} (facts : Declaration → δ)

/-- What is compared of a declaration says nothing about its place in the file. -/
def Placeless : Prop := ∀ (d : Declaration) (range : Range), facts { d with range := range } = facts d

/-- What the tokens ahead of a keyword declare. -/
def declared? (path : Path) (kind : DesignElement) (rest : List Token) : Option δ :=
  match declaredName? nameReach rest with
  | none => none
  | some (name, header) =>
    if isReserved name.text then none
    else some (facts ⟨name.text, kind, path, default, parametersOf header, portsOf header⟩)

/-- What a word sees of the tokens ahead. -/
structure Outlook (δ : Type) where
  /-- After `interface`: whether it is an interface class -/
  meetsClass : Bool
  /-- After the keyword of a design element: what it declares -/
  declared : Option δ
  /-- After a name: whether it is the target of an instantiation -/
  isTarget : Bool
deriving DecidableEq

def outlook (path : Path) (token : Token) (rest : List Token) : Outlook δ where
  meetsClass := token.text == "interface" && rest.head?.map Token.text == some "class"
  declared := (DesignElement.ofOpener? token.text).bind fun kind => declared? facts path kind rest
  isTarget := !isReserved token.text && isInstantiation rest

end Facts

/-- What counts of the tokens before. -/
def Lookback.gist (look : Lookback) : Option String × Bool :=
  (look.last, look.beforeLast == some "typedef")

/-! ## Outlines -/

/-- An open block without its place. -/
structure Frame where
  opener : String
  closers : List String
  designElement : Option DesignElement

def PendingBlock.frame (block : PendingBlock) : Frame :=
  ⟨block.opener, block.closers, block.designElement⟩

/-- A state without its places, and without what was read and instantiated. -/
structure Outline (δ : Type) where
  definitions : Definitions
  frames : List Frame
  delimiters : List Delimiter
  names : List DiagnosticName
  declarations : List δ

def State.outline {δ : Type} (facts : Declaration → δ) (state : State) : Outline δ where
  definitions := state.definitions
  frames := state.blocks.map PendingBlock.frame
  delimiters := state.delimiters.map PendingDelimiter.delimiter
  names := state.result.diagnostics.map Diagnostic.name
  declarations := state.result.declarations.map facts

/-- The targets instantiated so far. -/
def State.targets (state : State) : List String :=
  state.result.instantiations.map Instantiation.target

namespace Outline

variable {δ : Type} (outline : Outline δ)

def report (name : DiagnosticName) : Outline δ := { outline with names := outline.names ++ [name] }

def openBlock (word : String) (closers : List String) (declared : Option δ) : Outline δ :=
  { outline with
    frames := ⟨word, closers, DesignElement.ofOpener? word⟩ :: outline.frames
    declarations :=
      if outline.frames.any fun frame => frame.designElement.isSome then outline.declarations
      else outline.declarations ++ declared.toList }

def closeBlock (word : String) : Outline δ :=
  let skipped := outline.frames.takeWhile fun frame => !frame.closers.contains word
  match outline.frames.drop skipped.length with
  | [] => outline.report .unexpectedBlockEnd
  | _ :: outer =>
    { outline with
      frames := outer
      names := outline.names ++ List.replicate skipped.length .unterminatedBlock }

def openDelimiter (delimiter : Delimiter) : Outline δ :=
  { outline with delimiters := delimiter :: outline.delimiters }

def closeDelimiter (delimiter : Delimiter) : Outline δ :=
  match outline.delimiters with
  | [] => outline.report .unbalancedDelimiter
  | innermost :: outer =>
    if innermost = delimiter then { outline with delimiters := outer }
    else match outer.dropWhile fun opened => opened ≠ delimiter with
      | [] => outline.report .unbalancedDelimiter
      | _ :: remaining => { outline.report .unbalancedDelimiter with delimiters := remaining }

/-- Whether instances may stand inside of these blocks. -/
def holdsInstances : Bool :=
  match outline.frames.find? fun frame => !isTransparentBlock frame.opener with
  | some frame => frame.designElement.any DesignElement.holdsInstances
  | none => false

end Outline

/-! ## Checks on outlines -/

section Checks

variable {δ : Type} {facts : Declaration → δ} (state : State) (file : SourceFile) (token : Token)
variable (rest : List Token) (look : Lookback)

@[simp] theorem outline_report (diagnostic : Diagnostic) :
    (state.report diagnostic).outline facts = (state.outline facts).report diagnostic.name := by
  rw [State.outline, State.report, List.map_append]
  rfl

@[simp] theorem outline_find (path : Path) (range : Range) (finding : Finding) :
    (state.find path range finding).outline facts = (state.outline facts).report finding.name :=
  outline_report state _

theorem outline_closeBlock :
    (state.closeBlock file token).outline facts = (state.outline facts).closeBlock token.text := by
  have skipped : (state.outline facts).frames.takeWhile
        (fun frame => !frame.closers.contains token.text) =
      (state.blocks.takeWhile fun block => !block.closers.contains token.text).map
        PendingBlock.frame := List.takeWhile_map
  have left (count : Nat) : (state.outline facts).frames.drop count =
      (state.blocks.drop count).map PendingBlock.frame := (List.map_drop ..).symm
  rw [Outline.closeBlock, skipped, List.length_map, left, State.closeBlock]
  generalize state.blocks.takeWhile (fun block => !block.closers.contains token.text) = inner
  cases state.blocks.drop inner.length with
  | nil => exact outline_find state _ _ _
  | cons block outer =>
      have names : (inner.reverse.map fun block =>
          block.unterminated.located block.path block.range).map Diagnostic.name =
            List.replicate inner.length .unterminatedBlock := by
        rw [List.map_map, List.eq_replicate_iff]
        refine ⟨by rw [List.length_map, List.length_reverse], fun name member => ?_⟩
        obtain ⟨block, -, rfl⟩ := List.mem_map.1 member
        rfl
      dsimp only [State.outline]
      rw [List.map_append, names]
      rfl

theorem outline_closeDelimiter (delimiter : Delimiter) :
    (state.closeDelimiter file token delimiter).outline facts =
      (state.outline facts).closeDelimiter delimiter := by
  obtain ⟨definitions, blocks, delimiters, result⟩ := state
  cases delimiters with
  | nil => exact outline_find _ _ _ _
  | cons innermost outer =>
      have left : (outer.map PendingDelimiter.delimiter).dropWhile (fun opened => opened ≠ delimiter) =
          (outer.dropWhile fun opened => opened.delimiter ≠ delimiter).map
            PendingDelimiter.delimiter := List.dropWhile_map
      show State.outline facts (if innermost.delimiter = delimiter then _ else _) =
        if innermost.delimiter = delimiter then _ else
          match (outer.map PendingDelimiter.delimiter).dropWhile (fun opened => opened ≠ delimiter) with
          | [] => _
          | _ :: remaining => _
      rw [left]
      split
      · rfl
      · cases outer.dropWhile fun opened => opened.delimiter ≠ delimiter with
        | nil => exact outline_find _ _ _ _
        | cons opened remaining =>
            exact congrArg (fun outline : Outline δ =>
              { outline with delimiters := remaining.map PendingDelimiter.delimiter })
              (outline_find ⟨definitions, blocks, innermost :: outer, result⟩ file.path
                (file.tokenRange token) (.mismatchedDelimiter innermost.delimiter delimiter))

theorem holdsInstances_eq :
    holdsInstances state.blocks = (state.outline facts).holdsInstances := by
  have found : (state.outline facts).frames.find? (fun frame => !isTransparentBlock frame.opener) =
      (state.blocks.find? fun block => !isTransparentBlock block.opener).map PendingBlock.frame :=
    List.find?_map ..
  rw [holdsInstances, Outline.holdsInstances, found]
  cases state.blocks.find? fun block => !isTransparentBlock block.opener <;> rfl

variable (placeless : Placeless facts)

include placeless

theorem outline_declare (kind : DesignElement) :
    (state.declare file kind rest).outline facts =
      { state.outline facts with
        declarations := (state.outline facts).declarations ++
          (declared? facts file.path kind rest).toList } := by
  have nothing : state.outline facts =
      { state.outline facts with
        declarations := (state.outline facts).declarations ++ (none : Option δ).toList } := by
    rw [Option.toList_none, List.append_nil]
  rw [State.declare, declared?]
  cases declaredName? nameReach rest with
  | none => exact nothing
  | some found =>
      obtain ⟨name, header⟩ := found
      dsimp only
      split
      · exact nothing
      · dsimp only [State.outline, Option.toList_some]
        rw [List.map_append, List.map_singleton]
        exact congrArg (fun d => { state.outline facts with
          declarations := (state.outline facts).declarations ++ [d] })
          (placeless ⟨name.text, kind, file.path, default, _, _⟩ _)

theorem outline_openBlock (closers : List String) :
    (state.openBlock file token closers rest).outline facts =
      (state.outline facts).openBlock token.text closers
        (outlook facts file.path token rest).declared := by
  have inside : (state.outline facts).frames.any (fun frame => frame.designElement.isSome) =
      state.blocks.any fun block => block.designElement.isSome := by
    dsimp only [State.outline]
    rw [List.any_map]
    rfl
  rw [State.openBlock, Outline.openBlock, inside, outlook]
  cases DesignElement.ofOpener? token.text with
  | none =>
      dsimp only [Option.bind_none]
      rw [Option.toList_none, List.append_nil, ite_self]
      rfl
  | some kind =>
      dsimp only [Option.bind_some]
      split
      · rfl
      · have declared := outline_declare state file rest placeless kind
        exact congrArg (fun outline : Outline δ => { outline with
          frames := ⟨token.text, closers, some kind⟩ :: outline.frames }) declared

/-- What a word does to an outline. -/
def Outline.word (outline : Outline δ) (word : String) (opens : Bool) (declared : Option δ) :
    Outline δ :=
  if isBlockCloser word then outline.closeBlock word
  else match blockClosers? word with
    | some closers => if opens then outline.openBlock word closers declared else outline
    | none => outline

/-- What a checked token does to an outline. -/
def Outline.inspect (outline : Outline δ) (token : TokenKind × String) (opens : Bool)
    (declared : Option δ) : Outline δ :=
  match token.1 with
  | .identifier => outline.word token.2 opens declared
  | .opening delimiter => outline.openDelimiter delimiter
  | .closing delimiter => outline.closeDelimiter delimiter
  | .directive | .string | .other => outline

theorem outline_inspect :
    (state.inspect file token rest look).outline facts =
      (state.outline facts).inspect (plain token)
        (opensBlock token.text look (rest.head?.map Token.text))
        (outlook facts file.path token rest).declared := by
  rw [State.inspect, Outline.inspect, plain]
  dsimp only
  cases token.kind with
  | identifier =>
      dsimp only
      rw [State.word, Outline.word]
      split
      · exact outline_closeBlock state file token
      · cases blockClosers? token.text with
        | some closers =>
            dsimp only
            split
            · exact outline_openBlock state file token rest placeless closers
            · rfl
        | none =>
            dsimp only
            split <;> rfl
  | opening delimiter => rfl
  | closing delimiter => exact outline_closeDelimiter state file token delimiter
  | directive | string | other => rfl

end Checks

/-- Only a word depends on what stands around it. -/
theorem Outline.inspect_of_ne {δ : Type} (outline : Outline δ) {token : Token}
    (word : token.kind ≠ .identifier) (opens opens' : Bool) (declared declared' : Option δ) :
    outline.inspect (plain token) opens declared =
      outline.inspect (plain token) opens' declared' := by
  rw [Outline.inspect, Outline.inspect, plain]
  cases kind : token.kind with
  | identifier => exact absurd kind word
  | _ => rfl

/-! ## Positions of keywords -/

/-- The words after which a keyword may not open its block. -/
def bindingWords : List String :=
  ["virtual", "typedef", "interface", "wait", "disable", "assert", "assume", "cover", "expect",
   "restrict", "extern"]

theorem opensBlock_congr {look look' : Lookback} (same : look'.gist = look.gist) (word : String)
    (next : Option String) : opensBlock word look' next = opensBlock word look next := by
  obtain ⟨last, before⟩ := Prod.mk.inj same
  have after (words : List String) : look'.isAfter words = look.isAfter words := by
    rw [Lookback.isAfter, Lookback.isAfter, last]
  simp only [opensBlock, after, before]

theorem startsItem_congr {look look' : Lookback} (same : look'.gist = look.gist) :
    look'.startsItem = look.startsItem := by
  rw [Lookback.startsItem, Lookback.startsItem, (Prod.mk.inj same).1]

/-- Behind any other word a keyword stands as at the beginning of a file. -/
theorem opensBlock_of_unbound {look : Lookback} {last : String} (here : look.last = some last)
    (unbound : last ∉ bindingWords) (word : String) (next : Option String) :
    opensBlock word look next = opensBlock word .start next := by
  have after (words : List String) (sub : words ⊆ bindingWords) : look.isAfter words = false := by
    rw [Lookback.isAfter, here]
    exact Bool.eq_false_iff.2 fun found => unbound (sub (List.contains_iff_mem.1 found))
  have none (words : List String) : Lookback.start.isAfter words = false := rfl
  unfold opensBlock
  split <;>
    simp only [none, after ["virtual"] (by decide), after ["typedef"] (by decide),
      after ["interface"] (by decide), after ["wait", "disable"] (by decide),
      after ["assert", "assume", "cover", "expect", "restrict"] (by decide),
      after ["extern"] (by decide), Bool.false_and]

theorem opensBlock_outlook {δ : Type} (facts : Declaration → δ) (path : Path) (token : Token)
    (look : Lookback) (rest : List Token) :
    opensBlock token.text look (rest.head?.map Token.text) =
      opensBlock token.text look
        (if (outlook facts path token rest).meetsClass then some "class" else none) := by
  by_cases interface : token.text = "interface"
  · by_cases next : rest.head?.map Token.text = some "class"
    · simp [outlook, interface, next]
    · simp [outlook, interface, next, opensBlock]
  · unfold opensBlock
    split
    case h_1 keyword => exact absurd keyword interface
    all_goals rfl

/-! ## Instantiations -/

/-- The target that a token adds. -/
def Outline.target? {δ : Type} (outline : Outline δ) (token : TokenKind × String) (starts : Bool)
    (isTarget : Bool) : Option String :=
  if token.1 == .identifier && starts && outline.holdsInstances && isTarget then some token.2
  else none

theorem targets_closeBlock (state : State) (file : SourceFile) (token : Token) :
    (state.closeBlock file token).targets = state.targets := by
  rcases state.closeBlock_cases file token with same | ⟨_, _, _, -, same⟩ <;> rw [same] <;> rfl

theorem targets_openBlock (state : State) (file : SourceFile) (token : Token)
    (closers : List String) (rest : List Token) :
    (state.openBlock file token closers rest).targets = state.targets := by
  rcases state.openBlock_cases file token rest closers with same | ⟨_, _, _, -, -, -, same⟩ <;>
    rw [same] <;> rfl

theorem targets_closeDelimiter (state : State) (file : SourceFile) (token : Token)
    (delimiter : Delimiter) :
    (state.closeDelimiter file token delimiter).targets = state.targets := by
  rcases state.closeDelimiter_cases file token delimiter with
    same | ⟨_, _, -, same⟩ | ⟨_, _, -, same⟩ <;> rw [same] <;> rfl

theorem targets_inspect {δ : Type} (facts : Declaration → δ) (state : State) (file : SourceFile)
    (token : Token) (rest : List Token) (look : Lookback) :
    (state.inspect file token rest look).targets = state.targets ++
      ((state.outline facts).target? (plain token) look.startsItem
        (outlook facts file.path token rest).isTarget).toList := by
  -- A reserved word is no target.
  have reserved (h : isReserved token.text = true) : ((state.outline facts).target? (plain token)
      look.startsItem (outlook facts file.path token rest).isTarget).toList = [] := by
    rw [Outline.target?, outlook]
    simp only [h, Bool.not_true, Bool.false_and, Bool.and_false, Bool.false_eq_true, if_false,
      Option.toList_none]
  have other (h : token.kind ≠ .identifier) : ((state.outline facts).target? (plain token)
      look.startsItem (outlook facts file.path token rest).isTarget).toList = [] := by
    rw [Outline.target?, plain, beq_false_of_ne h]
    rfl
  rw [State.inspect]
  cases kind : token.kind with
  | identifier =>
      dsimp only
      rw [State.word]
      split
      case isTrue closes =>
        rw [targets_closeBlock, reserved (isReserved_of_isBlockCloser closes), List.append_nil]
      case isFalse =>
        cases opens : blockClosers? token.text with
        | some closers =>
            rw [reserved (isReserved_of_blockClosers? opens), List.append_nil]
            dsimp only
            split
            · exact targets_openBlock state file token closers rest
            · rfl
        | none =>
            have same : (!isReserved token.text && look.startsItem && holdsInstances state.blocks &&
                isInstantiation rest) = (TokenKind.identifier == .identifier && look.startsItem &&
                  holdsInstances state.blocks && (!isReserved token.text && isInstantiation rest)) := by
              cases isReserved token.text <;> cases look.startsItem <;>
                cases holdsInstances state.blocks <;> rfl
            rw [Outline.target?, outlook, ← holdsInstances_eq, plain, kind]
            dsimp only
            rw [same]
            split
            · exact List.map_append
            · exact (List.append_nil _).symm
  | opening _ =>
      rw [other (by simp [kind]), List.append_nil]
      rfl
  | closing delimiter =>
      rw [other (by simp [kind]), List.append_nil]
      exact targets_closeDelimiter state file token delimiter
  | directive | string | other =>
      rw [other (by simp [kind]), List.append_nil]

end Unit

end SvServer
