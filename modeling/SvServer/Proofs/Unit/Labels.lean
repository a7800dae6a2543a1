import Mathlib.Data.List.Infix
import SvServer.Proofs.Unit.Splice

/-!
# Labels of blocks

A label behind `begin` or `end` is read as two tokens that do nothing by themselves. What is checked
behind them finds the same, with one exception: the first token checked behind the keyword may begin
an item, and behind a label it may not. So at most one instantiation gets lost, and nothing else
changes.
-/

namespace SvServer

open Hdl

namespace Hdl

/-! ## A label in a text -/

theorem chars_of_listed {keyword : String} (listed : keyword = "begin" ∨ keyword = "end") :
    ∃ c d more, keyword.toList = c :: d :: more ∧ isIdentifierStart c = true := by
  rcases listed with rfl | rfl <;> exact ⟨_, _, _, rfl, rfl⟩

/-- **A label behind a keyword** is read as a colon and a name, and all else stays as it is. -/
theorem readFrom_labelled {text : List Char} {before behind : List Lexeme} {keyword : String}
    (cut : Lexeme.ofChars text = before ++ ⟨.identifier, keyword.toList⟩ :: behind)
    (listed : keyword = "begin" ∨ keyword = "end") {label : List Char}
    (reads : Lexeme.ofChars (label ++ Lexeme.flatten behind) = ⟨.identifier, label⟩ :: behind)
    {β : Type} (read : Lexeme → Nat → Option β)
    (skips : ∀ lexeme start, lexeme.kind = .blank → read lexeme start = none) :
    let inner := Lexeme.flatten before ++ keyword.toList
    Lexeme.readFrom read 0
        (Lexeme.ofChars (inner ++ ' ' :: ':' :: ' ' :: (label ++ Lexeme.flatten behind))) =
      Lexeme.readFrom read 0 before ++
        (Lexeme.readFrom read (Text.byteLength (Lexeme.flatten before))
            [⟨.identifier, keyword.toList⟩] ++
          (Lexeme.readFrom read (Text.byteLength inner + 1) [⟨.other, [':']⟩] ++
            Lexeme.readFrom read (Text.byteLength inner + 3) (⟨.identifier, label⟩ :: behind))) := by
  intro inner
  obtain ⟨c, d, more, chars, first⟩ := chars_of_listed listed
  have apart : c ≠ '\'' := by
    rintro rfl
    cases first
  have cuts (text' : List Char) : Lexeme.ofChars (inner ++ text') =
      before ++ Lexeme.ofChars (keyword.toList ++ text') := by
    have edge : Edge (keyword.toList ++ Lexeme.flatten behind) (keyword.toList ++ text') := by
      rw [chars]
      exact .word apart d _ _
    rw [List.append_assoc]
    exact Lexeme.ofChars_edge edge (cut_of_lexemes cut)
  have alone : Lexeme.ofChars keyword.toList = [⟨.identifier, keyword.toList⟩] := by
    rcases listed with rfl | rfl <;> decide +kernel
  have blank : Lexeme.ofChars (keyword.toList ++ [' ']) =
      [⟨.identifier, keyword.toList⟩, ⟨.blank, [' ']⟩] := by
    rcases listed with rfl | rfl <;> decide +kernel
  have ends : EndsWhole inner := by
    rw [EndsWhole, cuts, blank, List.getLast?_append]
    exact ⟨_, rfl, rfl⟩
  have spelled := cuts []
  rw [List.append_nil, List.append_nil, alone] at spelled
  have colon : EndsWhole [':'] := by decide +kernel
  have mark : Lexeme.ofChars [':'] = [⟨.other, [':']⟩] := by decide +kernel
  have behindColon := colon.readFrom read skips (Text.byteLength inner + 1)
    (label ++ Lexeme.flatten behind)
  rw [mark, reads] at behindColon
  rw [ends.readFrom read skips, spelled, Lexeme.readFrom_append, Nat.zero_add, Nat.zero_add,
    List.append_assoc]
  exact congrArg (fun words => Lexeme.readFrom read 0 before ++ (Lexeme.readFrom read
    (Text.byteLength (Lexeme.flatten before)) [⟨.identifier, keyword.toList⟩] ++ words)) behindColon

end Hdl

namespace Unit

variable {δ : Type} {facts : Declaration → δ}

/-! ## Walks behind a label -/

/-- Two walks of which one stands behind a keyword and the other one behind its label. -/
structure BehindLabel (facts : Declaration → δ) (walk walk' : Walk) : Prop where
  state : Parallel facts [] [] walk.state walk'.state
  starts : walk.look.startsItem = true
  starts' : walk'.look.startsItem = false
  last : ∃ word, walk.look.last = some word ∧ word ∉ bindingWords
  last' : ∃ word, walk'.look.last = some word ∧ word ∉ bindingWords

/-- Two walks that go on behind a label. The first token that is checked may begin an item on one
side only; from then on the walks are parallel. -/
inductive Trails (facts : Declaration → δ) (walk walk' : Walk) : Prop
  | behind (unread : BehindLabel facts walk walk')
  | apart (early : List String) (item : Option String)
      (walks : ParallelWalks facts (early ++ item.toList) early walk walk')

/-- The target of the instantiation with which the tokens behind a keyword begin. -/
def itemAt? (state : State) : List Token → Option String
  | [] => none
  | token :: rest =>
    if token.kind == .identifier && !isReserved token.text && holdsInstances state.blocks &&
        isInstantiation rest then some token.text
    else none

section Trails

variable (placeless : Placeless facts) {walk walk' : Walk}

include placeless

/-- **The first check behind a label** finds the same, but for an item that it begins. -/
theorem BehindLabel.inspect (same : BehindLabel facts walk walk') {file file' : SourceFile}
    {token token' : Token} {rest rest' : List Token} (plainly : plain token' = plain token)
    (ahead : token.kind = .identifier → outlook facts file'.path token' rest' =
      outlook facts file.path token rest) :
    ParallelWalks facts (walk.state.targets ++ (itemAt? walk.state (token :: rest)).toList)
      walk.state.targets
      ⟨walk.state.inspect file token rest walk.look, walk.look.push token⟩
      ⟨walk'.state.inspect file' token' rest' walk'.look, walk'.look.push token'⟩ := by
  obtain ⟨word, last, unbound⟩ := same.last
  obtain ⟨word', last', unbound'⟩ := same.last'
  obtain ⟨later, found, found'⟩ := same.state.targets
  have opens (next : Option String) : opensBlock token.text walk'.look next =
      opensBlock token.text walk.look next := by
    rw [opensBlock_of_unbound last unbound, opensBlock_of_unbound last' unbound']
  have item : (walk.state.outline facts).target? (plain token) walk.look.startsItem
      (outlook facts file.path token rest).isTarget = itemAt? walk.state (token :: rest) := by
    rw [Outline.target?, itemAt?, ← holdsInstances_eq, same.starts, plain, outlook]
    simp only [Bool.and_true, Bool.and_assoc, Bool.and_left_comm]
  have none : (walk'.state.outline facts).target? (plain token') walk'.look.startsItem
      (outlook facts file'.path token' rest').isTarget = none := by
    rw [Outline.target?, same.starts', Bool.and_false, Bool.false_and, Bool.false_and]
    rfl
  refine ⟨⟨same.state.outline_inspect placeless plainly opens ahead, [], ?_, ?_⟩, ?_⟩
  · rw [targets_inspect facts, item, List.append_nil]
  · rw [targets_inspect facts, none, found', found]
    rfl
  · have apart {word : String} (unbound : word ∉ bindingWords) : (some word == some "typedef") = false :=
      beq_false_of_ne fun typedef => unbound (by rw [Option.some.inj typedef]; decide)
    rw [Lookback.gist, Lookback.gist, Lookback.push, Lookback.push, last, last', apart unbound,
      apart unbound', (Prod.mk.inj plainly).2]

theorem tied_trails : Tied facts (Trails facts) where
  outline same := by
    cases same with
    | behind unread => exact unread.state.outline
    | apart early item walks => exact walks.state.outline
  keep same kept := by
    cases same with
    | behind unread => exact .behind { unread with state := kept _ _ unread.state }
    | apart early item walks => exact .apart early item ⟨kept _ _ walks.state, walks.look⟩
  inspect same plainly ahead := by
    cases same with
    | behind unread => exact .apart _ _ (unread.inspect placeless plainly ahead)
    | apart early item walks =>
        exact .apart early item ((tied_parallelWalks placeless _ _).inspect walks plainly ahead)

/-- **A walk behind a label** loses at most the item that the keyword would have begun. -/
theorem walk_behindLabel {context context' : Context} (beside : Beside facts context context')
    {words words' : List Token} (alike : SameWords context.file context'.file words words')
    {progress progress' : Progress} (active : Chain.isActive progress.chains = true)
    (same : Abreast (BehindLabel facts) progress progress') :
    ∃ (early : List String) (item : Option String),
      Abreast (fun walk walk' => Parallel facts (early ++ item.toList) early walk.state walk'.state)
        (context.walk words progress) (context'.walk words' progress') ∧
      ((∀ next ∈ words.head?, next.kind ≠ .directive) →
        item = itemAt? progress.walk.state words) := by
  cases alike with
  | nil =>
      rw [context.walk_nil, context'.walk_nil]
      exact ⟨[], none, ⟨same.walk.state, same.chains⟩, fun _ => rfl⟩
  | @cons token token' rest rest' plainly line behind =>
      by_cases directive : token.kind = .directive
      · have begun : Abreast (Trails facts) progress progress' := ⟨.behind same.walk, same.chains⟩
        have walked := (tied_trails placeless).walk beside (.cons plainly line behind) begun
        suffices ∃ (early : List String) (item : Option String), Abreast
            (fun walk walk' => Parallel facts (early ++ item.toList) early walk.state walk'.state)
            (context.walk (token :: rest) progress) (context'.walk (token' :: rest') progress') by
          obtain ⟨early, item, both⟩ := this
          exact ⟨early, item, both, fun checked => absurd directive (checked token rfl)⟩
        cases walked.walk with
        | behind unread => exact ⟨[], none, unread.state, walked.chains⟩
        | apart early item walks => exact ⟨early, item, walks.state, walked.chains⟩
      · have directive' : token'.kind ≠ .directive := by
          rwa [(Prod.mk.inj plainly).1]
        have active' := (Chain.isActive_congr same.chains).trans active
        have ahead : outlook facts context'.file.path token' rest' =
            outlook facts context.file.path token rest := by
          rw [beside.path]
          exact outlook_congr context.file.path plainly behind.plainly
        have checked := same.walk.inspect placeless plainly fun _ => ahead
        have both : Abreast (ParallelWalks facts _ _) ⟨_, progress.chains⟩ ⟨_, progress'.chains⟩ :=
          ⟨checked, same.chains⟩
        have walked := (tied_parallelWalks placeless _ _).walk beside behind both
        refine ⟨progress.walk.state.targets, itemAt? progress.walk.state (token :: rest), ?_,
          fun _ => rfl⟩
        rw [context.walk_of_checked rest active directive,
          context'.walk_of_checked rest' active' directive']
        exact ⟨walked.walk.state, walked.chains⟩

end Trails

/-! ## Labels -/

/-- An active `begin` or `end` in the text of a root. -/
structure ActiveKeyword (settings : Settings) (root : Path) (text : String) (keyword : Token)
    (rest : List Token) (progress : Progress) : Prop where
  comes : ComesTo settings root text (keyword :: rest) progress
  active : Chain.isActive progress.chains = true
  word : keyword.kind = .identifier
  listed : keyword.text = "begin" ∨ keyword.text = "end"

/-- A name that can be written as the label of a keyword: it reads as one identifier in front of what
follows there, and it is not reserved. -/
structure LabelOf (text : String) (keyword : Token) (label : String) : Prop where
  reads : Lexeme.ofChars (label.toList ++ Text.dropBytes text.toList keyword.stop) =
    ⟨.identifier, label.toList⟩ :: Lexeme.ofChars (Text.dropBytes text.toList keyword.stop)
  free : isReserved label = false

/-- A text with a label behind a keyword. -/
def labelled (text : String) (keyword : Token) (label : String) : String :=
  String.ofList
    (Text.splice text.toList keyword.stop keyword.stop (' ' :: ':' :: ' ' :: label.toList))

/-- The tokens of a label. -/
def labelTokens (label : String) : List Token := [⟨.other, ":", 0, 0⟩, ⟨.identifier, label, 0, 0⟩]

/-- What a header gives to a declaration. -/
def Declaration.header (d : Declaration) : String × List Parameter × List String :=
  (d.name, d.parameters, d.ports)

/-- Words that see the same header see the same of a declaration. -/
theorem outlook_of_header {path : Path} {token : Token} {rest rest' : List Token}
    (same : outlook Declaration.header path token rest' =
      outlook Declaration.header path token rest) :
    outlook facts path token rest' = outlook facts path token rest := by
  have declared (kind : DesignElement) (rest : List Token) : declared? facts path kind rest =
      (declared? Declaration.header path kind rest).map fun (name, parameters, ports) =>
        facts ⟨name, kind, path, default, parameters, ports⟩ := by
    rw [declared?, declared?]
    cases declaredName? nameReach rest with
    | none => rfl
    | some found =>
        dsimp only
        split <;> rfl
  have meets := congrArg Outlook.meetsClass same
  have found := congrArg Outlook.declared same
  have target := congrArg Outlook.isTarget same
  dsimp only [outlook] at meets found target
  rw [outlook, outlook, meets, target]
  congr 1
  cases element : DesignElement.ofOpener? token.text with
  | none => rfl
  | some kind =>
      rw [element] at found
      exact (declared kind rest').trans ((congrArg _ found).trans (declared kind rest).symm)

/-- **No word in front looks over the keyword**: each that is checked sees the same with the
label. -/
def SeesNoLabel (settings : Settings) (root : Path) (text : String) (keyword : Token)
    (rest : List Token) (label : String) : Prop :=
  ∀ word between progress, ComesTo settings root text (word :: (between ++ keyword :: rest)) progress →
    Chain.isActive progress.chains = true → word.kind = .identifier →
    outlook Declaration.header root word (between ++ keyword :: (labelTokens label ++ rest)) =
      outlook Declaration.header root word (between ++ keyword :: rest)

/-- What the words of the root see can be compared word by word. -/
theorem SeesNoLabel.of_tails {settings : Settings} {root : Path} {text label : String}
    {keyword : Token} {front rest : List Token} (split : tokens text.toList = front ++ keyword :: rest)
    (before : ∀ words ∈ front.tails, ∀ word ∈ words.head?,
      outlook Declaration.header root word (words.tail ++ keyword :: (labelTokens label ++ rest)) =
        outlook Declaration.header root word (words.tail ++ keyword :: rest)) :
    SeesNoLabel settings root text keyword rest label :=
  fun word _ _ comes _ _ =>
    before _ ((List.mem_tails _ _).2 (suffix_of_comesTo split comes)) word rfl

section Texts

variable {text : String} {front rest : List Token} {keyword : Token}
variable {before behind : List Lexeme} {lexeme : Lexeme}
variable (cut : CutAt text.toList front keyword rest before lexeme behind)
variable (word : keyword.kind = .identifier) {label : String}

include cut word

theorem toList_labelled (label : String) : (labelled text keyword label).toList =
    Lexeme.flatten before ++ keyword.text.toList ++
      ' ' :: ':' :: ' ' :: (label.toList ++ Lexeme.flatten behind) := by
  have spelled := congrArg Lexeme.chars (Lexeme.eq_of_identifier cut.token word)
  rw [labelled, String.toList_ofList, cut.stop, cut.whole, spelled, ← List.append_assoc,
    ← Text.byteLength_append]
  exact Text.splice_append _ [] _ _

/-- A directive takes its operand off the keyword with the label as it does without. -/
theorem operandName_labelled (root : Path) (directive : Token) (label : String)
    (rest rest' : List Token) :
    operandName ⟨root, (labelled text keyword label).toList⟩ directive (keyword :: rest') =
      operandName ⟨root, text.toList⟩ directive (keyword :: rest) := by
  have spelled := Lexeme.eq_of_identifier cut.token word
  have filled : keyword.text.toList ≠ [] := by
    have listed : lexeme ∈ Lexeme.ofChars text.toList := by
      rw [cut.lexemes]
      exact List.mem_append_right _ (.head _)
    rw [spelled] at listed
    exact Lexeme.chars_ne_nil listed
  have whole : text.toList =
      Lexeme.flatten before ++ keyword.text.toList ++ Lexeme.flatten behind := by
    rw [cut.whole, spelled, List.append_assoc]
  refine operandName_of_within whole (toList_labelled cut word label) ?_ _ _
  rw [cut.start, Text.byteLength_append]
  exact Nat.lt_add_of_pos_right (Text.byteLength_pos filled)

variable (listed : keyword.text = "begin" ∨ keyword.text = "end")

include listed

/-- The texts are the same up to the keyword. -/
theorem exchange_labelled (settings settings' : Settings) (root : Path) (label : String)
    (more : List Token) :
    Exchange (rootContext settings root text)
      (rootContext settings' root (labelled text keyword label)) (Lexeme.flatten before) front
      (keyword :: rest) (keyword :: more) := by
  have spelled := congrArg Lexeme.chars (Lexeme.eq_of_identifier cut.token word)
  obtain ⟨c, d, others, chars, first⟩ := chars_of_listed listed
  refine exchange_of_cutAt cut (spelled.trans chars) ?_ ?_
    ⟨_, (toList_labelled cut word label).trans (List.append_assoc _ _ _), ?_⟩ ?_
    settings settings' root
  · rintro rfl
    cases first
  · rintro rfl
    cases first
  · rw [chars, List.cons_append, List.head?_cons]
    rintro ⟨⟩
    cases first
  · rintro token ⟨⟩
    exact Nat.le_of_eq cut.start.symm

variable (isLabel : LabelOf text keyword label)

include isLabel

theorem readFrom_label {β : Type} (read : Lexeme → Nat → Option β)
    (skips : ∀ lexeme start, lexeme.kind = .blank → read lexeme start = none) :
    let inner := Lexeme.flatten before ++ keyword.text.toList
    Lexeme.readFrom read 0 (Lexeme.ofChars (labelled text keyword label).toList) =
      Lexeme.readFrom read 0 before ++
        (Lexeme.readFrom read (Text.byteLength (Lexeme.flatten before)) [lexeme] ++
          (Lexeme.readFrom read (Text.byteLength inner + 1) [⟨.other, [':']⟩] ++
            Lexeme.readFrom read (Text.byteLength inner + 3)
              (⟨.identifier, label.toList⟩ :: behind))) := by
  have same := Lexeme.eq_of_identifier cut.token word
  have reads := isLabel.reads
  rw [cut.stop, cut.whole, ← List.append_assoc, ← Text.byteLength_append, Text.dropBytes_all,
    ofChars_behind cut.lexemes] at reads
  have lexemes := cut.lexemes
  rw [same] at lexemes ⊢
  rw [toList_labelled cut word]
  exact readFrom_labelled lexemes listed reads read skips

/-- The tokens of the new text are those up to the keyword, those of the label and those behind. -/
theorem tokens_labelled : ∃ colon name rest',
    tokens (labelled text keyword label).toList = front ++ keyword :: colon :: name :: rest' ∧
      [colon, name].map plain = (labelTokens label).map plain ∧
      ∀ root, SameWords ⟨root, text.toList⟩ ⟨root, (labelled text keyword label).toList⟩ rest
        rest' := by
  have reads := readFrom_label cut word listed isLabel Lexeme.token? Lexeme.token?_of_blank
  have whole := toList_labelled cut word label
  generalize Lexeme.flatten before ++ keyword.text.toList = inner at reads whole
  let start := Text.byteLength inner + 3
  let stop := start + Text.byteLength label.toList
  have size : Text.byteLength (inner ++ ' ' :: ':' :: ' ' :: label.toList) = stop := by
    rw [Text.byteLength_append]
    simp only [stop, start, Text.byteLength_cons, show ' '.utf8Size = 1 from rfl,
      show ':'.utf8Size = 1 from rfl]
    omega
  have colon (start : Nat) : Lexeme.token? ⟨.other, [':']⟩ start =
      some ⟨.other, ":", start, start + 1⟩ := rfl
  have name (start : Nat) : Lexeme.token? ⟨.identifier, label.toList⟩ start =
      some ⟨.identifier, label, start, start + Text.byteLength label.toList⟩ := by
    rw [Lexeme.token?, Lexeme.contents, String.ofList_toList]
    rfl
  refine ⟨⟨.other, ":", Text.byteLength inner + 1, Text.byteLength inner + 2⟩,
    ⟨.identifier, label, start, stop⟩, Lexeme.readFrom Lexeme.token? stop behind, ?_, rfl,
    fun root => ?_⟩
  · rw [tokens_eq, reads, ← cut.front, Lexeme.readFrom_cons, cut.token, Lexeme.readFrom_cons, colon,
      Lexeme.readFrom_cons, name]
    rfl
  · rw [cut.rest, ← Text.byteLength_append, ← size]
    refine sameWords_moved (ofChars_behind cut.lexemes) ?_ ?_
    · rw [cut.whole, List.append_assoc]
    · rw [whole, List.append_assoc]
      rfl

/-- Nothing is wrong with a label. -/
theorem errors_labelled :
    (lexicalErrors (labelled text keyword label).toList).map LexicalError.kind =
      (lexicalErrors text.toList).map LexicalError.kind := by
  have reads := readFrom_label cut word listed isLabel Lexeme.error? Lexeme.error?_of_blank
  have found : lexicalErrors (labelled text keyword label).toList = Lexeme.readFrom Lexeme.error? 0
    (Lexeme.ofChars (labelled text keyword label).toList) := rfl
  have found' : lexicalErrors text.toList =
    Lexeme.readFrom Lexeme.error? 0 (Lexeme.ofChars text.toList) := rfl
  rw [found, reads, found', cut.lexemes, List.map_append, List.map_append, List.map_append,
    map_kind_readFrom, map_kind_readFrom, map_kind_readFrom, map_kind_readFrom, map_kind_readFrom,
    List.filterMap_append]
  exact congrArg _ List.filterMap_append.symm

end Texts

/-- A name that begins no item does nothing by itself. -/
theorem inspect_of_free {token : Token} {look : Lookback} (kind : token.kind = .identifier)
    (free : isReserved token.text = false) (inner : look.startsItem = false) (state : State)
    (file : SourceFile) (rest : List Token) : state.inspect file token rest look = state := by
  have closes : ¬isBlockCloser token.text = true := fun closes =>
    Bool.false_ne_true (free.symm.trans (isReserved_of_isBlockCloser closes))
  rw [State.inspect, kind]
  dsimp only
  rw [State.word, if_neg closes]
  cases opens : blockClosers? token.text with
  | some closers => rw [isReserved_of_blockClosers? opens] at free; cases free
  | none =>
      dsimp only
      rw [inner, Bool.and_false, Bool.false_and, Bool.false_and]
      rfl

/-- A label is none of the words that an item may follow. -/
theorem LabelOf.startsItem {text : String} {keyword : Token} {label : String}
    (isLabel : LabelOf text keyword label) (beforeLast : Option String) :
    Lookback.startsItem ⟨some label, beforeLast⟩ = false := by
  have reserved : ∀ word ∈ ["begin", "end", "generate", "endgenerate", "else"],
      isReserved word = true := by decide
  have symbol {c : Char} (other : ∀ rest, (classify c rest).1 ≠ .identifier) :
      label ≠ String.ofList [c] := by
    rintro rfl
    have reads := isLabel.reads
    rw [String.toList_ofList, List.singleton_append, Lexeme.ofChars_cons] at reads
    exact other _ (congrArg Lexeme.kind (List.cons.inj reads).1)
  rw [Lookback.startsItem]
  refine Bool.eq_false_iff.2 fun listed => ?_
  rcases List.mem_cons.1 (List.contains_iff_mem.1 listed) with same | listed
  · exact symbol (c := ';') (fun _ kind => by cases kind) same
  rcases List.mem_cons.1 listed with same | listed
  · exact symbol (c := ')') (fun _ kind => by cases kind) same
  · exact Bool.false_ne_true (isLabel.free.symm.trans (reserved label listed))

theorem unbound_of_free {label : String} (free : isReserved label = false) :
    label ∉ bindingWords := by
  have reserved : ∀ word ∈ bindingWords, isReserved word = true := by decide
  exact fun bound => Bool.false_ne_true (free.symm.trans (reserved label bound))

/-- A keyword that opens or closes a block sees nothing of what follows it. -/
theorem outlook_of_listed (facts : Declaration → δ) {path : Path} {keyword : Token}
    (listed : keyword.text = "begin" ∨ keyword.text = "end") (rest rest' : List Token) :
    outlook facts path keyword rest' = outlook facts path keyword rest := by
  have reserved : isReserved keyword.text = true := by
    rcases listed with same | same <;> rw [same] <;> decide
  have element : DesignElement.ofOpener? keyword.text = none := by
    rcases listed with same | same <;> rw [same] <;> rfl
  have plainly : (keyword.text == "interface") = false := by
    rcases listed with same | same <;> rw [same] <;> rfl
  rw [outlook, outlook, reserved, element, plainly]
  rfl

/-- **A walk passes a label** with nothing to show for it. -/
theorem walk_past_label (placeless : Placeless facts) {context context' : Context}
    {progress progress' : Progress}
    (same : Abreast (ParallelWalks facts [] []) progress progress')
    (active : Chain.isActive progress.chains = true) {text : String} {keyword : Token}
    (word : keyword.kind = .identifier) (listed : keyword.text = "begin" ∨ keyword.text = "end")
    {label : String} (isLabel : LabelOf text keyword label) {colon name : Token}
    (written : [colon, name].map plain = (labelTokens label).map plain)
    (path : context'.file.path = context.file.path) (rest rest' : List Token) :
    ∃ after', context'.walk (keyword :: colon :: name :: rest') progress' =
        context'.walk rest' after' ∧
      Abreast (BehindLabel facts)
        ⟨⟨progress.walk.state.inspect context.file keyword rest progress.walk.look,
          progress.walk.look.push keyword⟩, progress.chains⟩ after' := by
  obtain ⟨⟨state', look'⟩, chains'⟩ := progress'
  obtain ⟨colonKind, colonText⟩ := Prod.mk.inj (List.cons.inj written).1
  obtain ⟨nameKind, nameText⟩ := Prod.mk.inj (List.cons.inj (List.cons.inj written).2).1
  have active' : Chain.isActive chains' = true := (Chain.isActive_congr same.chains).trans active
  have ahead : outlook facts context'.file.path keyword (colon :: name :: rest') =
      outlook facts context.file.path keyword rest := by
    rw [path]
    exact outlook_of_listed facts listed _ _
  have checked := (tied_parallelWalks placeless [] []).inspect same.walk rfl fun _ => ahead
  have unbound : keyword.text ∉ bindingWords := by
    rcases listed with same | same <;> rw [same] <;> decide
  have starts : (progress.walk.look.push keyword).startsItem = true := by
    rw [Lookback.push, Lookback.startsItem]
    rcases listed with same | same <;> rw [same] <;> rfl
  refine ⟨⟨⟨state'.inspect context'.file keyword (colon :: name :: rest') look',
    ((look'.push keyword).push colon).push name⟩, chains'⟩, ?_, ?_, same.chains⟩
  · rw [context'.walk_of_checked _ active' (by simp [word]),
      context'.walk_of_checked _ active' (by simp [colonKind]),
      context'.walk_of_checked _ active' (by simp [nameKind])]
    have colonStill (state : State) (look : Lookback) :
        state.inspect context'.file colon (name :: rest') look = state := by
      rw [State.inspect, colonKind]
    have behindColon : ((look'.push keyword).push colon).startsItem = false := by
      rw [Lookback.push, Lookback.startsItem, colonText]
      rfl
    dsimp only
    rw [colonStill, inspect_of_free nameKind (by rw [nameText]; exact isLabel.free) behindColon]
  · refine ⟨checked.state, starts, ?_, ⟨_, rfl, unbound⟩, ⟨_, rfl, ?_⟩⟩
    · rw [Lookback.push, nameText]
      exact isLabel.startsItem _
    · rw [nameText]
      exact unbound_of_free isLabel.free

/-- **A label changes nothing** but what the first token checked behind it does. -/
theorem parallel_labelled (placeless : Placeless facts) {settings settings' : Settings} {root : Path}
    (besides : SameBesides settings settings' root) {text : String} {keyword : Token}
    {rest : List Token} {progress : Progress}
    (active : ActiveKeyword settings root text keyword rest progress) {label : String}
    (isLabel : LabelOf text keyword label)
    (sees : SeesNoLabel settings root text keyword rest label)
    (read : settings.sources.text root = some text)
    (read' : settings'.sources.text root = some (labelled text keyword label)) :
    ∃ (state state' : State) (early : List String) (item : Option String),
      compileUnit settings root = state.result ∧ compileUnit settings' root = state'.result ∧
      Parallel facts (early ++ item.toList) early state state' ∧
      ((∀ next ∈ rest.head?, next.kind ≠ .directive) →
        item = itemAt? (progress.walk.state.inspect ⟨root, text.toList⟩ keyword rest
          progress.walk.look) rest) := by
  obtain ⟨front, split⟩ := suffix_of_comes active.comes
  have split : front ++ keyword :: rest = tokens text.toList := split
  obtain ⟨before, lexeme, behind, cut⟩ := exists_cutAt split.symm
  obtain ⟨colon, name, rest', words, written, alike⟩ :=
    tokens_labelled cut active.word active.listed isLabel
  have errors := errors_labelled cut active.word active.listed isLabel
  have exchange := exchange_labelled cut active.word active.listed settings settings' root label
    (colon :: name :: rest')
  have operands (directive : Token) := operandName_labelled cut active.word root directive label rest
    (colon :: name :: rest')
  generalize labelled text keyword label = text' at words errors alike exchange operands read'
  have alike := alike root
  have plainly : (keyword :: colon :: name :: rest').map plain =
      (keyword :: (labelTokens label ++ rest)).map plain := by
    refine congrArg (List.cons (plain keyword)) ?_
    rw [List.map_append, ← written, ← alike.plainly]
    rfl
  have tied := tied_parallelWalks placeless [] []
  have beside := besides.beside placeless text text'
  -- Up to the keyword
  have comes := active.comes
  rw [ComesTo, ← split] at comes
  obtain ⟨⟨walk', chains'⟩, comes', both⟩ := tied.comes beside exchange
    (fun word between reached comes active word' => by
      rw [split] at comes
      refine (outlook_congr root rfl ?_).trans
        (outlook_of_header (sees word between reached comes active word'))
      rw [List.map_append, List.map_append, plainly])
    (fun directive _ _ _ => operands directive)
    (besides.abreast_start errors) [] comes
  -- Past the label, and behind it
  obtain ⟨after', past, unread⟩ := walk_past_label placeless both active.active active.word
    active.listed isLabel written beside.path rest rest'
  obtain ⟨early, item, last, first⟩ := walk_behindLabel placeless beside alike
    (by exact active.active) unread
  have walked := (walk_of_comes comes).trans
    ((rootContext settings root text).walk_of_checked rest active.active (by simp [active.word]))
  have walked' := (walk_of_comes comes').trans past
  rw [split] at walked
  rw [← words] at walked'
  obtain ⟨state, state', result, result', same⟩ := parallel_of_walks read read' walked walked' last
  exact ⟨state, state', early, item, result, result', same, first⟩

end Unit

/-! ## What a unit gives -/

/-- **A label is transparent** where no word in front looks over its keyword, but for one thing: an
instantiation that the first token checked behind it would begin is passed over. -/
theorem compileUnit_labelled {settings settings' : Unit.Settings} {root : Path}
    (besides : Unit.SameBesides settings settings' root) {text : String} {keyword : Token}
    {rest : List Token} {progress : Unit.Progress}
    (active : Unit.ActiveKeyword settings root text keyword rest progress) {label : String}
    (isLabel : Unit.LabelOf text keyword label)
    (sees : Unit.SeesNoLabel settings root text keyword rest label)
    (read : settings.sources.text root = some text)
    (read' : settings'.sources.text root = some (Unit.labelled text keyword label)) :
    let result := compileUnit settings root
    let result' := compileUnit settings' root
    let opened := progress.walk.state.inspect ⟨root, text.toList⟩ keyword rest progress.walk.look
    result'.diagnostics.map (·.name) = result.diagnostics.map (·.name) ∧
      result'.declarations.map (fun d => { d with range := default }) =
        result.declarations.map (fun d => { d with range := default }) ∧
      ∃ before item behind,
        result.instantiations.map (·.target) = before ++ Option.toList item ++ behind ∧
        result'.instantiations.map (·.target) = before ++ behind ∧
        ((∀ next ∈ rest.head?, next.kind ≠ .directive) → item = Unit.itemAt? opened rest) := by
  intro result result' opened
  have placeless : Unit.Placeless fun d : Declaration => { d with range := default } :=
    fun _ _ => rfl
  obtain ⟨state, state', early, item, compiled, compiled', same, first⟩ :=
    Unit.parallel_labelled placeless besides active isLabel sees read read'
  obtain ⟨later, targets, targets'⟩ := same.targets
  rw [show result = state.result from compiled, show result' = state'.result from compiled']
  exact ⟨congrArg Unit.Outline.names same.outline, congrArg Unit.Outline.declarations same.outline,
    early, item, later, targets, targets', first⟩

/-- A labelled block that begins with a statement. -/
theorem compileUnit_labelled_of_statement :
    let text := "module m;\ninitial begin\nx = 1;\nend\nsub u ();\nendmodule\n"
    let keyword : Token := ⟨.identifier, "begin", 18, 23⟩
    let targets (text : String) := (compileUnit ⟨loneSources text, .empty, .warning⟩
      (.ofString "/p/top.sv")).instantiations.map (·.target)
    targets text = ["sub"] ∧ targets (Unit.labelled text keyword "g") = ["sub"] := by
  intro text keyword targets
  let settings (text : String) : Unit.Settings := ⟨loneSources text, .empty, .warning⟩
  have active : Unit.ActiveKeyword (settings text) (.ofString "/p/top.sv") text keyword
      ((tokens text.toList).drop 5)
      (Unit.placeAfter (settings text) (.ofString "/p/top.sv") text 4).2 :=
    ⟨Unit.comesTo_placeAfter (by decide +kernel), by decide +kernel, rfl, .inl rfl⟩
  have isLabel : Unit.LabelOf text keyword "g" := ⟨by decide +kernel, by decide +kernel⟩
  have sees : Unit.SeesNoLabel (settings text) (.ofString "/p/top.sv") text keyword
      ((tokens text.toList).drop 5) "g" := by
    have split : tokens text.toList = (tokens text.toList).take 4 ++
        keyword :: (tokens text.toList).drop 5 := by decide +kernel
    exact .of_tails split (by decide +kernel)
  obtain ⟨-, -, before, item, behind, whole, labelled, first⟩ := compileUnit_labelled
    (Unit.sameBesides_loneSources text _ _ _) active isLabel sees rfl rfl
  have nothing : item = none := (first (by decide +kernel)).trans (by decide +kernel)
  have same : targets text = ["sub"] := by decide +kernel
  rw [nothing, Option.toList_none, List.append_nil] at whole
  exact ⟨same, labelled.trans (whole.symm.trans same)⟩

/-- **An item behind a label is passed over.** -/
theorem compileUnit_labelled_ne :
    let text := "module m;\ngenerate\nif (1) begin\nsub u ();\nend\nendgenerate\nendmodule\n"
    let keyword : Token := ⟨.identifier, "begin", 26, 31⟩
    let targets (text : String) := (compileUnit ⟨loneSources text, .empty, .warning⟩
      (.ofString "/p/top.sv")).instantiations.map (·.target)
    keyword ∈ tokens text.toList ∧ targets text = ["sub"] ∧
      targets (Unit.labelled text keyword "g") = [] := by
  decide +kernel

end SvServer
