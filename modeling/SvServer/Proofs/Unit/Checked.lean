import SvServer.Proofs.Hdl.ByteLine
import SvServer.Proofs.Text.LineTable
import SvServer.Proofs.Unit.Changes
import SvServer.Proofs.Unit.Spans

/-!
# A unit compile that looks after its bounds

The compile of a unit once more, over the bytes of its texts: what is cut out of a text has to lie
between two characters of it and in order, an index has to lie in its list, and a difference must not
be below zero. Where one of them does not, nothing is compiled at all. That never comes about: for
every text, macro table and provider there is a report, that of the compile.

Each function here has the name of the one that it looks after.
-/

namespace SvServer

open Hdl

/-- The elements from an index on, if the index is not behind the end. -/
def from? {α : Type} (list : List α) (index : Nat) : Option (List α) :=
  if index ≤ list.length then some (list.drop index) else none

theorem from?_of_le {α : Type} {list : List α} {index : Nat} (le : index ≤ list.length) :
    from? list index = some (list.drop index) := if_pos le

theorem mapM_eq_some {α β : Type} {f : α → Option β} {g : α → β} {list : List α}
    (each : ∀ a ∈ list, f a = some (g a)) : list.mapM f = some (list.map g) := by
  induction list with
  | nil => rfl
  | cons a rest ih =>
      obtain ⟨first, others⟩ := List.forall_mem_cons.1 each
      rw [List.mapM_cons, first, ih others]
      rfl

theorem foldlM_eq_some {α β : Type} {f : β → α → Option β} {g : β → α → β} {list : List α}
    (each : ∀ a ∈ list, ∀ b, f b a = some (g b a)) (b : β) :
    list.foldlM f b = some (list.foldl g b) := by
  induction list generalizing b with
  | nil => rfl
  | cons a rest ih =>
      obtain ⟨first, others⟩ := List.forall_mem_cons.1 each
      rw [List.foldlM_cons, first, List.foldl_cons, ← ih others]
      rfl

namespace Unit

/-- Each open block has a word that closes it. -/
def State.Closable (state : State) : Prop := ∀ block ∈ state.blocks, block.closers ≠ []

namespace Checked

/-! ## Places -/

def range (file : SourceFile) (start stop : Nat) : Option Range := do
  return ⟨← Text.position? file.text start, ← Text.position? file.text stop⟩

def tokenRange (file : SourceFile) (token : Token) : Option Range :=
  range file token.start token.stop

variable {file : SourceFile} {token : Token}

theorem range_eq_some {start stop : Nat} :
    range file start stop = some (file.range start stop) := by
  rw [range, Text.position?_eq, Text.position?_eq]
  rfl

theorem tokenRange_eq_some : tokenRange file token = some (file.tokenRange token) := range_eq_some

/-! ## Headers -/

/-- The index behind a balanced group. The tokens begin at `index`, and `depth` delimiters are open. -/
def groupEnd? : (depth index : Nat) → List Token → Option Nat
  | _, _, [] => none
  | depth, index, token :: rest =>
    match token.kind with
    | .opening _ => groupEnd? (depth + 1) (index + 1) rest
    | .closing _ =>
      match minus? depth 1 with
      | none => none
      | some depth => if depth = 0 then some (index + 1) else groupEnd? depth (index + 1) rest
    | .other => if token.text = ";" then none else groupEnd? depth (index + 1) rest
    | _ => groupEnd? depth (index + 1) rest

/-- An index at which some tokens begin, in a list whose first token has the index `first`: both are
known, or neither. -/
def Begins (first : Nat) (tokens : List Token) (index? : Option Nat) (behind? : Option (List Token)) :
    Prop :=
  (∃ passed behind, tokens = passed ++ behind ∧ index? = some (first + passed.length) ∧
    behind? = some behind) ∨ (index? = none ∧ behind? = none)

theorem Begins.cons {first : Nat} {rest : List Token} {index? : Option Nat}
    {behind? : Option (List Token)} (begins : Begins (first + 1) rest index? behind?) (token : Token) :
    Begins first (token :: rest) index? behind? := by
  rcases begins with ⟨passed, behind, rfl, found, same⟩ | nowhere
  · refine .inl ⟨token :: passed, behind, rfl, ?_, same⟩
    rw [found, List.length_cons, Nat.add_assoc, Nat.add_comm 1]
  · exact .inr nowhere

theorem begins_groupEnd? (depth first : Nat) (tokens : List Token) :
    Begins first tokens (groupEnd? depth first tokens) (afterGroup? depth tokens) := by
  induction tokens generalizing depth first with
  | nil => exact .inr ⟨rfl, rfl⟩
  | cons token rest ih =>
      have further (depth : Nat) := (ih depth (first + 1)).cons token
      cases kind : token.kind with
      | opening => simpa only [groupEnd?, afterGroup?, kind] using further (depth + 1)
      | closing =>
          rcases depth with _ | _ | depth
          · simp only [groupEnd?, afterGroup?, kind]
            exact .inr ⟨rfl, rfl⟩
          · simp only [groupEnd?, afterGroup?, kind]
            exact .inl ⟨[token], rest, rfl, rfl, rfl⟩
          · simpa [groupEnd?, afterGroup?, kind, minus?] using further (depth + 1)
      | other =>
          by_cases broken : token.text = ";"
          · simp only [groupEnd?, afterGroup?, kind, if_pos broken]
            exact .inr ⟨rfl, rfl⟩
          · simpa only [groupEnd?, afterGroup?, kind, if_neg broken] using further depth
      | _ => simpa only [groupEnd?, afterGroup?, kind] using further depth

/-- The index of the name that a design element declares. -/
def nameIndex? : (count index : Nat) → List Token → Option Nat
  | 0, _, _ => none
  | _, _, [] => none
  | count + 1, index, token :: rest =>
    if token.kind == .identifier && token.text ≠ "automatic" && token.text ≠ "static" then some index
    else nameIndex? count (index + 1) rest

theorem begins_nameIndex? (count first : Nat) (tokens : List Token) :
    Begins first tokens (nameIndex? count first tokens)
      ((declaredName? count tokens).map fun found => found.1 :: found.2) := by
  induction count generalizing first tokens with
  | zero => exact .inr ⟨rfl, rfl⟩
  | succ count ih =>
      cases tokens with
      | nil => exact .inr ⟨rfl, rfl⟩
      | cons token rest =>
          rw [declaredName?, nameIndex?]
          split
          · exact .inl ⟨[], token :: rest, rfl, rfl, rfl⟩
          · exact (ih (first + 1) rest).cons token

def parametersFrom : (depth : Nat) → ParameterItem → List Token → Option (List Parameter)
  | _, item, [] => some item.toList
  | depth, item, token :: rest =>
    match token.kind with
    | .opening _ => parametersFrom (depth + 1) (item.take token) rest
    | .closing _ =>
      if depth = 0 then some item.toList
      else (minus? depth 1).bind fun depth => parametersFrom depth (item.take token) rest
    | .other =>
      if depth = 0 ∧ token.text = ";" then some item.toList
      else if depth = 0 ∧ token.text = "," then
        (parametersFrom depth ⟨none, none⟩ rest).map (item.toList ++ ·)
      else if depth = 0 ∧ token.text = "=" ∧ item.default = none then
        parametersFrom depth { item with default := some "" } rest
      else parametersFrom depth (item.take token) rest
    | _ => parametersFrom depth (item.take token) rest

theorem parametersFrom_eq_some (depth : Nat) (item : ParameterItem) (tokens : List Token) :
    parametersFrom depth item tokens = some (Unit.parametersFrom depth item tokens) := by
  induction tokens generalizing depth item with
  | nil => rfl
  | cons token rest ih =>
      cases depth <;> cases kind : token.kind
      case zero.other =>
        simp only [parametersFrom, Unit.parametersFrom, kind, ih, true_and, apply_ite some,
          Option.map_some]
      all_goals simp [parametersFrom, Unit.parametersFrom, kind, ih, minus?]

def parametersOf (tokens : List Token) : Option (List Parameter) :=
  if tokens.head?.any (·.text = "#") && tokens[1]?.any (·.kind = .opening .paren) then
    (from? tokens 2).bind fun items => parametersFrom 0 ⟨none, none⟩ items
  else some []

theorem parametersOf_eq_some (tokens : List Token) :
    parametersOf tokens = some (Unit.parametersOf tokens) := by
  rw [parametersOf]
  match tokens with
  | [] => rfl
  | [_] => simp [Unit.parametersOf]
  | hash :: opener :: rest =>
      rw [from?_of_le (Nat.le_add_left 2 rest.length), Option.bind_some, parametersFrom_eq_some]
      simp [Unit.parametersOf, apply_ite some]

def portsFrom : (depth : Nat) → Option String → List Token → Option (List String)
  | _, last, [] => some last.toList
  | depth, last, token :: rest =>
    match token.kind with
    | .opening _ => portsFrom (depth + 1) last rest
    | .closing _ =>
      if depth = 0 then some last.toList
      else (minus? depth 1).bind fun depth => portsFrom depth last rest
    | .other =>
      if depth = 0 ∧ token.text = ";" then some last.toList
      else if depth = 0 ∧ token.text = "," then (portsFrom depth none rest).map (last.toList ++ ·)
      else portsFrom depth last rest
    | .identifier =>
      portsFrom depth (if depth = 0 ∧ ¬isReserved token.text then some token.text else last) rest
    | _ => portsFrom depth last rest

theorem portsFrom_eq_some (depth : Nat) (last : Option String) (tokens : List Token) :
    portsFrom depth last tokens = some (Unit.portsFrom depth last tokens) := by
  induction tokens generalizing depth last with
  | nil => rfl
  | cons token rest ih =>
      cases depth <;> cases kind : token.kind
      case zero.other =>
        simp only [portsFrom, Unit.portsFrom, kind, ih, true_and, apply_ite some, Option.map_some]
      case zero.identifier =>
        simp only [portsFrom, Unit.portsFrom, kind, ih, true_and]
        cases isReserved token.text <;> rfl
      all_goals simp [portsFrom, Unit.portsFrom, kind, ih, minus?]

def portsOf (tokens : List Token) : Option (List String) :=
  let start := if tokens.head?.any (·.text = "#") then groupEnd? 0 1 tokens.tail else some 0
  match start with
  | none => some []
  | some start =>
    if tokens[start]?.any (·.kind = .opening .paren) then
      (from? tokens (start + 1)).bind fun items => portsFrom 0 none items
    else some []

theorem portsOf_eq_some (tokens : List Token) :
    portsOf tokens = some (Unit.portsOf tokens) := by
  match tokens with
  | [] => rfl
  | hash :: rest =>
      by_cases numbered : hash.text = "#"
      · rcases begins_groupEnd? 0 1 rest with ⟨group, behind, rfl, ends, after⟩ | ⟨ends, after⟩
        · have front : 1 + group.length = (hash :: group).length := Nat.add_comm _ _
          have whole : hash :: (group ++ behind) = (hash :: group) ++ behind := rfl
          simp only [portsOf, Unit.portsOf, List.head?_cons, Option.any_some, numbered,
            List.tail_cons, ends, after, if_true, decide_true]
          rw [front, whole, List.getElem?_append_right (Nat.le_refl _), Nat.sub_self]
          cases behind with
          | nil => rfl
          | cons opener items =>
              have within : (hash :: group).length + 1 ≤ ((hash :: group) ++ opener :: items).length := by
                rw [List.length_append, List.length_cons (a := opener)]
                omega
              rw [from?_of_le within, Option.bind_some, portsFrom_eq_some, List.drop_append,
                List.drop_eq_nil_of_le (Nat.le_succ _), Nat.add_sub_cancel_left]
              simp [apply_ite some]
        · simp [portsOf, Unit.portsOf, numbered, after, ends]
      · simp [portsOf, Unit.portsOf, numbered, from?, portsFrom_eq_some, apply_ite some]

/-! ## Structure checks -/

/-- What is found of a block that is never closed. It names the first word that would close it. -/
def unterminated (block : PendingBlock) : Option Finding :=
  block.closers.head?.map (.unterminatedBlock block.opener ·)

/-- What is found of some blocks, each at its place. -/
def unterminatedAll (blocks : List PendingBlock) : Option (List Diagnostic) :=
  blocks.mapM fun block => (unterminated block).map (·.located block.path block.range)

theorem unterminated_eq_some {block : PendingBlock} (closers : block.closers ≠ []) :
    unterminated block = some block.unterminated := by
  obtain ⟨closer, others, same⟩ := List.exists_cons_of_ne_nil closers
  rw [unterminated, PendingBlock.unterminated, same]
  rfl

theorem unterminatedAll_eq_some {blocks : List PendingBlock}
    (closers : ∀ block ∈ blocks, block.closers ≠ []) : unterminatedAll blocks =
      some (blocks.map fun block => block.unterminated.located block.path block.range) :=
  mapM_eq_some fun block member => by rw [unterminated_eq_some (closers block member)]; rfl

def declare (state : State) (file : SourceFile) (kind : DesignElement) (rest : List Token) :
    Option State :=
  match nameIndex? nameReach 0 rest with
  | none => some state
  | some index => do
    let name ← rest[index]?
    if isReserved name.text then return state
    else
      let range ← tokenRange file name
      let header ← from? rest (index + 1)
      let declaration : Declaration :=
        ⟨name.text, kind, file.path, range, ← parametersOf header, ← portsOf header⟩
      return { state with result :=
        { state.result with declarations := state.result.declarations ++ [declaration] } }

theorem declare_eq_some (state : State) (kind : DesignElement) (rest : List Token) :
    declare state file kind rest = some (state.declare file kind rest) := by
  rw [declare, State.declare]
  rcases begins_nameIndex? nameReach 0 rest with ⟨passed, behind, rfl, found, named⟩ | ⟨found, named⟩
  · obtain ⟨⟨name, header⟩, named, rfl⟩ := Option.map_eq_some_iff.1 named
    have here : (passed ++ name :: header)[passed.length]? = some name := by
      rw [List.getElem?_append_right (Nat.le_refl _), Nat.sub_self, List.getElem?_cons_zero]
    have behind : from? (passed ++ name :: header) (passed.length + 1) = some header := by
      rw [from?_of_le (by rw [List.length_append, List.length_cons]; omega), List.drop_append,
        List.drop_eq_nil_of_le (Nat.le_succ _), Nat.add_sub_cancel_left]
      rfl
    rw [found, named, Nat.zero_add]
    simp only [here, behind, tokenRange_eq_some, parametersOf_eq_some, portsOf_eq_some,
      Option.bind_eq_bind, Option.bind_some, Option.pure_def, apply_ite some]
  · rw [found, Option.map_eq_none_iff.1 named]

def openBlock (state : State) (file : SourceFile) (token : Token) (closers : List String)
    (rest : List Token) : Option State := do
  let designElement := DesignElement.ofOpener? token.text
  let declared ← match designElement with
    | some kind =>
      if state.blocks.any fun block => block.designElement.isSome then some state
      else declare state file kind rest
    | none => some state
  return { declared with
    blocks :=
      ⟨token.text, closers, designElement, file.path, ← tokenRange file token⟩ :: declared.blocks }

theorem openBlock_eq_some (state : State) (closers : List String) (rest : List Token) :
    openBlock state file token closers rest = some (state.openBlock file token closers rest) := by
  rw [openBlock, State.openBlock]
  cases DesignElement.ofOpener? token.text with
  | none => simp [tokenRange_eq_some]
  | some kind =>
      cases within : state.blocks.any fun block => block.designElement.isSome <;>
        simp [declare_eq_some state kind rest, tokenRange_eq_some]

/-- The index of the innermost block that a word closes, among those that are open, the outermost one
first. -/
def closedIndex? (word : String) : List PendingBlock → Option Nat
  | [] => none
  | block :: outer => if block.closers.contains word then some outer.length else closedIndex? word outer

theorem closedIndex?_cases (word : String) (blocks : List PendingBlock) :
    (∃ skipped block outer, blocks = skipped ++ block :: outer ∧
      blocks.takeWhile (fun block => !block.closers.contains word) = skipped ∧
      closedIndex? word blocks = some outer.length) ∨
    (blocks.takeWhile (fun block => !block.closers.contains word) = blocks ∧
      closedIndex? word blocks = none) := by
  induction blocks with
  | nil => exact .inr ⟨rfl, rfl⟩
  | cons block outer ih =>
      rw [List.takeWhile_cons, closedIndex?]
      cases closes : block.closers.contains word with
      | true => exact .inl ⟨[], block, outer, rfl, rfl, rfl⟩
      | false =>
          rcases ih with ⟨skipped, inner, outer, rfl, same, found⟩ | ⟨same, found⟩
          · refine .inl ⟨block :: skipped, inner, outer, rfl, ?_, found⟩
            rw [same]
            rfl
          · refine .inr ⟨?_, found⟩
            rw [same]
            rfl

def closeBlock (state : State) (file : SourceFile) (token : Token) : Option State :=
  match closedIndex? token.text state.blocks with
  | none => do
    return state.find file.path (← tokenRange file token) (.unexpectedBlockEnd token.text)
  | some index => do
    let skipped ← from? state.blocks.reverse (index + 1)
    let missing ← unterminatedAll skipped
    return { state with
      blocks := (state.blocks.reverse.take index).reverse
      result := { state.result with diagnostics := state.result.diagnostics ++ missing } }

theorem closeBlock_eq_some {state : State} (closable : state.Closable) :
    closeBlock state file token = some (state.closeBlock file token) := by
  rw [closeBlock, State.closeBlock]
  rcases closedIndex?_cases token.text state.blocks with
    ⟨skipped, block, outer, split, taken, found⟩ | ⟨taken, found⟩
  · have reversed : (skipped ++ block :: outer).reverse = outer.reverse ++ block :: skipped.reverse := by
      rw [List.reverse_append, List.reverse_cons, List.append_assoc]
      rfl
    have drained : from? (outer.reverse ++ block :: skipped.reverse) (outer.length + 1) =
        some skipped.reverse := by
      rw [from?_of_le (by simp), List.drop_append, List.drop_eq_nil_of_le (by simp)]
      simp
    have closers : ∀ block ∈ skipped.reverse, block.closers ≠ [] := fun block member =>
      closable block (by rw [split]; exact List.mem_append_left _ (List.mem_reverse.1 member))
    have kept : ((outer.reverse ++ block :: skipped.reverse).take outer.length).reverse = outer := by
      rw [List.take_left' List.length_reverse, List.reverse_reverse]
    simp only [found, taken]
    rw [split, reversed, drained, List.drop_left, kept]
    simp only [unterminatedAll_eq_some closers, Option.bind_eq_bind, Option.bind_some,
      Option.pure_def]
  · simp only [found, taken, List.drop_length, tokenRange_eq_some, Option.bind_eq_bind,
      Option.bind_some, Option.pure_def]

def closeDelimiter (state : State) (file : SourceFile) (token : Token) (delimiter : Delimiter) :
    Option State := do
  let range ← tokenRange file token
  match state.delimiters with
  | [] => return state.find file.path range (.unexpectedDelimiter delimiter)
  | innermost :: outer =>
    if innermost.delimiter = delimiter then return { state with delimiters := outer }
    else
      let reported := state.find file.path range (.mismatchedDelimiter innermost.delimiter delimiter)
      match outer.dropWhile fun opened => opened.delimiter ≠ delimiter with
      | [] => return reported
      | _ :: remaining => return { reported with delimiters := remaining }

theorem closeDelimiter_eq_some (state : State) (delimiter : Delimiter) :
    closeDelimiter state file token delimiter = some (state.closeDelimiter file token delimiter) := by
  rw [closeDelimiter, State.closeDelimiter, tokenRange_eq_some]
  cases state.delimiters with
  | nil => rfl
  | cons innermost outer =>
      simp only [Option.bind_eq_bind, Option.bind_some, Option.pure_def]
      split
      · rfl
      · cases outer.dropWhile (fun opened => opened.delimiter ≠ delimiter) <;> rfl

def word (state : State) (file : SourceFile) (token : Token) (rest : List Token) (look : Lookback) :
    Option State :=
  if isBlockCloser token.text then closeBlock state file token
  else match blockClosers? token.text with
    | some closers =>
      if opensBlock token.text look (rest.head?.map Token.text) then
        openBlock state file token closers rest
      else some state
    | none =>
      if !isReserved token.text && look.startsItem && holdsInstances state.blocks &&
          isInstantiation rest then do
        let range ← tokenRange file token
        return { state with result :=
          { state.result with instantiations :=
              state.result.instantiations ++ [⟨token.text, file.path, range⟩] } }
      else some state

theorem word_eq_some {state : State} (closable : state.Closable) (rest : List Token)
    (look : Lookback) :
    word state file token rest look = some (state.word file token rest look) := by
  rw [word, State.word, closeBlock_eq_some closable]
  split
  · rfl
  · cases blockClosers? token.text with
    | some closers =>
        dsimp only
        split
        · exact openBlock_eq_some state _ rest
        · rfl
    | none =>
        rw [tokenRange_eq_some]
        dsimp only
        split <;> rfl

def inspect (state : State) (file : SourceFile) (token : Token) (rest : List Token)
    (look : Lookback) : Option State :=
  match token.kind with
  | .identifier => word state file token rest look
  | .opening delimiter => do
    let range ← tokenRange file token
    return { state with delimiters := ⟨delimiter, file.path, range⟩ :: state.delimiters }
  | .closing delimiter => closeDelimiter state file token delimiter
  | .directive | .string | .other => some state


theorem inspect_eq_some {state : State} (closable : state.Closable) (rest : List Token)
    (look : Lookback) :
    inspect state file token rest look = some (state.inspect file token rest look) := by
  rw [inspect, State.inspect]
  cases token.kind with
  | identifier => exact word_eq_some closable rest look
  | opening => rw [tokenRange_eq_some]; rfl
  | closing delimiter => exact closeDelimiter_eq_some state delimiter
  | _ => rfl

/-! ## Open blocks -/

theorem ne_nil_of_blockClosers? {word : String} {closers : List String}
    (known : blockClosers? word = some closers) : closers ≠ [] := by
  unfold blockClosers? at known
  split at known <;> cases known <;> exact List.cons_ne_nil _ _

end Checked

namespace State.Closable

variable {state : State} {file : SourceFile} {token : Token} {rest : List Token} {look : Lookback}

theorem openBlock (closable : state.Closable) {closers : List String} (filled : closers ≠ []) :
    (state.openBlock file token closers rest).Closable := by
  rcases state.openBlock_cases file token rest closers with same | ⟨_, _, _, -, -, -, same⟩ <;>
    rw [same] <;> exact List.forall_mem_cons.2 ⟨filled, closable⟩

theorem closeBlock (closable : state.Closable) : (state.closeBlock file token).Closable := by
  rcases state.closeBlock_cases file token with
    same | ⟨skipped, closed, outer, split, same⟩ <;> rw [same]
  · exact closable
  · exact fun block member => closable block
      (split ▸ List.mem_append_right _ (List.mem_cons_of_mem _ member))

theorem closeDelimiter (closable : state.Closable) (delimiter : Delimiter) :
    (state.closeDelimiter file token delimiter).Closable := by
  rcases state.closeDelimiter_cases file token delimiter with
    same | ⟨_, _, -, same⟩ | ⟨_, _, -, same⟩ <;> rw [same] <;> exact closable

/-- **Each block that is open can be closed.** -/
theorem inspect (closable : state.Closable) :
    (state.inspect file token rest look).Closable := by
  rcases state.inspect_cases file token rest look with
    same | ⟨-, same | ⟨closers, known, same⟩ | same⟩ | ⟨delimiter, same | same⟩ <;> rw [same]
  · exact closable
  · exact closable.closeBlock
  · exact closable.openBlock (Checked.ne_nil_of_blockClosers? known)
  · exact closable
  · exact closable
  · exact closable.closeDelimiter delimiter

end State.Closable

end Unit

end SvServer
