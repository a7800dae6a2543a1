import SvServer.Unit.Header

/-!
# Names of a header

A header lists parameters and ports: items with commas between them. An item has a type, the name
that it declares, unpacked dimensions, and perhaps a default behind an equals sign. The parameters
and the ports of a design element are read from such a list word by word, and not in the same way.
For a parameter brackets make no difference, so a name in an unpacked dimension is taken for the one
that is declared. For a port the equals sign makes none, so a name in the default is taken for it.
In all other items both find the name that is declared.
-/

namespace SvServer.Unit

open Hdl

/-! ## Runs of tokens with nested brackets -/

/-- Whether a token is neither a delimiter nor a semicolon. -/
def isInline (token : Token) : Bool :=
  match token.kind with
  | .opening _ | .closing _ => false
  | .other => token.text ≠ ";"
  | _ => true

/-- A run of tokens without a semicolon, whose brackets are nested. -/
inductive Phrase where
  | done
  | word (token : Token) (inline : isInline token = true) (after : Phrase)
  | group (delimiter : Delimiter) (opener : Token) (opens : opener.kind = .opening delimiter)
      (inside : Phrase) (closer : Token) (closes : closer.kind = .closing delimiter)
      (after : Phrase)

namespace Phrase

/-- All tokens of a phrase. -/
def tokens : Phrase → List Token
  | done => []
  | word token _ after => token :: after.tokens
  | group _ opener _ inside closer _ after =>
    opener :: (inside.tokens ++ closer :: after.tokens)

/-- The words of a phrase that stand in none of its brackets. -/
def words : Phrase → List Token
  | done => []
  | word token _ after => token :: after.words
  | group _ _ _ _ _ _ after => after.words

end Phrase

/-- Whether a token is a name, that is, an identifier that is not reserved. -/
def isName (token : Token) : Bool := token.kind == .identifier && !isReserved token.text

/-- The last name among tokens. -/
def lastName? (words : List Token) : Option String :=
  (words.filter isName).getLast?.map Token.text

/-- Whether a token is a mark with the given text. -/
def isMark (text : String) (token : Token) : Bool := token.kind == .other && token.text == text

/-! ## Items -/

/-- The default of an item: an equals sign and an expression without a comma outside of brackets. -/
structure ItemDefault where
  equals : Token
  isEquals : isMark "=" equals = true
  value : Phrase
  closed : ∀ word ∈ value.words, isMark "," word = false

/-- An item of a header. -/
structure HeaderItem where
  /-- Type words and packed dimensions -/
  type : Phrase
  typed : ∀ word ∈ type.words, isMark "," word = false ∧ isMark "=" word = false
  name : Token
  named : isName name = true
  /-- Unpacked dimensions, all in brackets -/
  dimensions : Phrase
  bracketed : dimensions.words = []
  default : Option ItemDefault

namespace HeaderItem

variable (item : HeaderItem)

/-- The tokens of the default, with its equals sign. -/
def defaultTokens : List Token :=
  match item.default with
  | some default => default.equals :: default.value.tokens
  | none => []

/-- The tokens of an item. -/
def tokens : List Token :=
  item.type.tokens ++ item.name :: (item.dimensions.tokens ++ item.defaultTokens)

/-- How a token is written in a default. -/
def spelled (token : Token) : String :=
  if token.kind == .string then "\"" ++ token.text ++ "\"" else token.text

/-- The default as written, without blanks. -/
def defaultText : String :=
  match item.default with
  | some default => String.join (default.value.tokens.map spelled)
  | none => ""

/-- The parameter that an item declares. -/
def declaredParameter : Parameter := ⟨item.name.text, item.defaultText⟩

/-- The port that an item declares. -/
def declaredPort : String := item.name.text

/-- The name that is read for a parameter: the last one in the unpacked dimensions, if there is any
in them. -/
def parameter : Parameter :=
  ⟨(lastName? item.dimensions.tokens).getD item.name.text, item.defaultText⟩

/-- The name that is read for a port: the last one in the default outside of brackets, if there is
any in it. -/
def port : String :=
  match item.default with
  | some default => (lastName? default.value.words).getD item.name.text
  | none => item.name.text

end HeaderItem

/-- Items with commas between them, and perhaps one after the last. -/
inductive HeaderItems where
  | done
  | last (item : HeaderItem)
  | more (item : HeaderItem) (comma : Token) (isComma : isMark "," comma = true)
      (others : HeaderItems)

namespace HeaderItems

def list : HeaderItems → List HeaderItem
  | done => []
  | last item => [item]
  | more item _ _ others => item :: others.list

def tokens : HeaderItems → List Token
  | done => []
  | last item => item.tokens
  | more item comma _ others => item.tokens ++ comma :: others.tokens

end HeaderItems

/-- Items in parentheses. -/
structure ItemGroup where
  opener : Token
  opens : opener.kind = .opening .paren
  items : HeaderItems
  closer : Token
  closes : closer.kind = .closing .paren

def ItemGroup.tokens (group : ItemGroup) : List Token :=
  group.opener :: (group.items.tokens ++ [group.closer])

/-- What follows the name of a design element: its parameters behind a hash, and its ports. -/
structure Header where
  hash : Token
  isHash : hash.text = "#"
  parameters : ItemGroup
  ports : ItemGroup

def Header.tokens (header : Header) : List Token :=
  header.hash :: (header.parameters.tokens ++ header.ports.tokens)

/-! ## Names and marks among tokens -/

theorem isMark_iff {text : String} {token : Token} :
    isMark text token = true ↔ token.kind = .other ∧ token.text = text := by
  rw [isMark, Bool.and_eq_true, beq_iff_eq, beq_iff_eq]

theorem isMark_eq_false {text : String} {token : Token} (other : token.kind = .other) :
    isMark text token = false ↔ token.text ≠ text := by
  rw [isMark, other, BEq.rfl, Bool.true_and, beq_eq_false_iff_ne]

theorem lastName?_cons (token : Token) (rest : List Token) :
    lastName? (token :: rest) =
      (lastName? rest).or (if isName token then some token.text else none) := by
  rw [lastName?, lastName?, List.filter_cons]
  split
  · rw [List.getLast?_cons]
    cases (rest.filter isName).getLast? <;> rfl
  · rw [Option.or_none]

/-! ## Parameters, token by token -/

namespace ParameterItem

/-- The item after some more tokens. -/
def takeAll (item : ParameterItem) (tokens : List Token) : ParameterItem := tokens.foldl take item

/-- Only an equals sign begins a default. -/
theorem default_take (item : ParameterItem) (token : Token) :
    (item.take token).default = none ↔ item.default = none := by
  rw [take]
  split
  · rename_i known
    rw [known]
    exact ⟨nofun, nofun⟩
  · split <;> exact Iff.rfl

theorem default_takeAll (item : ParameterItem) (tokens : List Token) :
    (item.takeAll tokens).default = none ↔ item.default = none := by
  induction tokens generalizing item with
  | nil => exact Iff.rfl
  | cons token rest ih => exact (ih (item.take token)).trans (default_take item token)

/-- Before the equals sign the last name counts. -/
theorem takeAll_of_none (name : Option String) (tokens : List Token) :
    takeAll ⟨name, none⟩ tokens = ⟨(lastName? tokens).or name, none⟩ := by
  induction tokens generalizing name with
  | nil => rfl
  | cons token rest ih =>
      have step : take ⟨name, none⟩ token =
          ⟨(if isName token then some token.text else none).or name, none⟩ := by
        rw [take, isName]
        dsimp only
        split <;> rfl
      rw [takeAll, List.foldl_cons, step, ← takeAll, ih, lastName?_cons, Option.or_assoc]

/-- Behind it all that is written belongs to the default. -/
theorem takeAll_of_some (name : Option String) (value : String) (tokens : List Token) :
    takeAll ⟨name, some value⟩ tokens =
      ⟨name, some (value ++ String.join (tokens.map HeaderItem.spelled))⟩ := by
  induction tokens generalizing value with
  | nil => rw [List.map_nil, String.join_nil, String.append_empty]; rfl
  | cons token rest ih =>
      have step : take ⟨name, some value⟩ token =
          ⟨name, some (value ++ HeaderItem.spelled token)⟩ := rfl
      rw [takeAll, List.foldl_cons, step, ← takeAll, ih, List.map_cons, String.join_cons,
        String.append_assoc]

end ParameterItem

section Parameters

variable (item : ParameterItem) (rest : List Token)

/-- In brackets every token is taken. -/
theorem parametersFrom_word (depth : Nat) {token : Token} (inline : isInline token = true) :
    parametersFrom (depth + 1) item (token :: rest) =
      parametersFrom (depth + 1) (item.take token) rest := by
  obtain ⟨kind, text, start, stop⟩ := token
  cases kind with
  | opening | closing => exact absurd inline Bool.false_ne_true
  | identifier | directive | string | other => rfl

/-- Outside of brackets a token is taken if it neither ends the item nor begins its default. -/
theorem parametersFrom_top {token : Token} (inline : isInline token = true)
    (comma : isMark "," token = false)
    (equals : item.default = none → isMark "=" token = false) :
    parametersFrom 0 item (token :: rest) = parametersFrom 0 (item.take token) rest := by
  obtain ⟨kind, text, start, stop⟩ := token
  cases kind with
  | opening | closing => exact absurd inline Bool.false_ne_true
  | identifier | directive | string => rfl
  | other =>
      have semicolon : text ≠ ";" := of_decide_eq_true inline
      have comma : text ≠ "," := (isMark_eq_false rfl).1 comma
      have equals : ¬(text = "=" ∧ item.default = none) := fun begins =>
        (isMark_eq_false rfl).1 (equals begins.2) begins.1
      simp only [parametersFrom, if_neg semicolon, if_neg comma, if_neg equals]

theorem parametersFrom_opener (depth : Nat) {opener : Token} {delimiter : Delimiter}
    (opens : opener.kind = .opening delimiter) :
    parametersFrom depth item (opener :: rest) =
      parametersFrom (depth + 1) (item.take opener) rest := by
  obtain ⟨kind, text, start, stop⟩ := opener
  cases opens
  cases depth <;> rfl

theorem parametersFrom_closer (depth : Nat) {closer : Token} {delimiter : Delimiter}
    (closes : closer.kind = .closing delimiter) :
    parametersFrom (depth + 1) item (closer :: rest) =
      parametersFrom depth (item.take closer) rest := by
  obtain ⟨kind, text, start, stop⟩ := closer
  cases closes
  rfl

/-- In brackets a phrase is taken as a whole. -/
theorem parametersFrom_inside (depth : Nat) (phrase : Phrase) :
    parametersFrom (depth + 1) item (phrase.tokens ++ rest) =
      parametersFrom (depth + 1) (item.takeAll phrase.tokens) rest := by
  induction phrase generalizing depth item rest with
  | done => rfl
  | word token inline after ih =>
      rw [Phrase.tokens, List.cons_append, parametersFrom_word item _ depth inline, ih]
      rfl
  | group delimiter opener opens inside closer closes after inside_ih ih =>
      rw [Phrase.tokens, List.cons_append, List.append_assoc, List.cons_append,
        parametersFrom_opener item _ _ opens, inside_ih, parametersFrom_closer _ _ _ closes, ih]
      simp only [ParameterItem.takeAll, List.foldl_cons, List.foldl_append]

/-- Outside of brackets a phrase is taken as a whole if no word of it ends the item or begins its
default. -/
theorem parametersFrom_outside (phrase : Phrase)
    (clear : ∀ word ∈ phrase.words,
      isMark "," word = false ∧ (item.default = none → isMark "=" word = false)) :
    parametersFrom 0 item (phrase.tokens ++ rest) =
      parametersFrom 0 (item.takeAll phrase.tokens) rest := by
  induction phrase generalizing item rest with
  | done => rfl
  | word token inline after ih =>
      obtain ⟨comma, equals⟩ := clear token (.head _)
      rw [Phrase.tokens, List.cons_append, parametersFrom_top item _ inline comma equals, ih]
      · rfl
      · intro word member
        rw [ParameterItem.default_take]
        exact clear word (.tail _ member)
  | group delimiter opener opens inside closer closes after inside_ih ih =>
      rw [Phrase.tokens, List.cons_append, List.append_assoc, List.cons_append,
        parametersFrom_opener item _ _ opens, parametersFrom_inside,
        parametersFrom_closer _ _ _ closes, ih]
      · simp only [ParameterItem.takeAll, List.foldl_cons, List.foldl_append]
      · intro word member
        rw [ParameterItem.default_take, ParameterItem.default_takeAll, ParameterItem.default_take]
        exact clear word member

/-- **An item is read as the parameter that it gives**, up to what ends it. -/
theorem parametersFrom_item (headerItem : HeaderItem) :
    parametersFrom 0 ⟨none, none⟩ (headerItem.tokens ++ rest) =
      parametersFrom 0 ⟨some headerItem.parameter.name,
        headerItem.default.map fun _ => headerItem.defaultText⟩ rest := by
  obtain ⟨type, typed, name, named, dimensions, bracketed, default⟩ := headerItem
  -- The type is taken, then the name, then the dimensions, which may hold a later name.
  have typeTaken : ∀ more, parametersFrom 0 ⟨none, none⟩ (type.tokens ++ more) =
      parametersFrom 0 ⟨lastName? type.tokens, none⟩ more := by
    intro more
    rw [parametersFrom_outside _ _ type fun word member =>
        ⟨(typed word member).1, fun _ => (typed word member).2⟩,
      ParameterItem.takeAll_of_none, Option.or_none]
  have identifier : name.kind = .identifier ∧ isReserved name.text = false := by
    rwa [isName, Bool.and_eq_true, beq_iff_eq, Bool.not_eq_true'] at named
  have nameTaken : ∀ before more, parametersFrom 0 ⟨before, none⟩ (name :: more) =
      parametersFrom 0 ⟨some name.text, none⟩ more := by
    intro before more
    obtain ⟨kind, text, start, stop⟩ := name
    obtain ⟨rfl, free⟩ := identifier
    rw [parametersFrom_top _ _ rfl rfl fun _ => rfl, ParameterItem.take]
    simp only [BEq.rfl, free, Bool.not_false, Bool.and_self, if_true]
  have dimensionsTaken : ∀ more, parametersFrom 0 ⟨some name.text, none⟩
      (dimensions.tokens ++ more) =
      parametersFrom 0 ⟨some ((lastName? dimensions.tokens).getD name.text), none⟩ more := by
    intro more
    rw [parametersFrom_outside _ _ dimensions (by rw [bracketed]; exact nofun),
      ParameterItem.takeAll_of_none]
    cases lastName? dimensions.tokens <;> rfl
  rw [HeaderItem.tokens, List.append_assoc, List.cons_append, List.append_assoc, typeTaken,
    nameTaken, dimensionsTaken]
  cases default with
  | none => rfl
  | some default =>
      obtain ⟨⟨kind, text, start, stop⟩, isEquals, value, closed⟩ := default
      obtain ⟨rfl, rfl⟩ := isMark_iff.1 isEquals
      rw [HeaderItem.defaultTokens, List.cons_append]
      simp only [parametersFrom, and_self, if_true, if_false,
        show ¬"=" = ";" by decide, show ¬"=" = "," by decide]
      rw [parametersFrom_outside _ _ value fun word member =>
          ⟨closed word member, fun absent => absurd absent (Option.some_ne_none _)⟩,
        ParameterItem.takeAll_of_some, String.empty_append]
      rfl

/-- A finished item is a parameter. -/
theorem toList_parameter (headerItem : HeaderItem) :
    ParameterItem.toList ⟨some headerItem.parameter.name,
      headerItem.default.map fun _ => headerItem.defaultText⟩ = [headerItem.parameter] := by
  rw [ParameterItem.toList, HeaderItem.parameter, HeaderItem.defaultText]
  cases headerItem.default <;> rfl

/-- **The items of a list are read one by one.** -/
theorem parametersFrom_items {closer : Token} {delimiter : Delimiter}
    (closes : closer.kind = .closing delimiter) (items : HeaderItems) :
    parametersFrom 0 ⟨none, none⟩ (items.tokens ++ closer :: rest) =
      items.list.map HeaderItem.parameter := by
  obtain ⟨kind, text, start, stop⟩ := closer
  cases closes
  induction items with
  | done => rfl
  | last headerItem =>
      rw [HeaderItems.tokens, parametersFrom_item]
      exact toList_parameter headerItem
  | more headerItem comma isComma others ih =>
      obtain ⟨kind, text, start, stop⟩ := comma
      obtain ⟨rfl, rfl⟩ := isMark_iff.1 isComma
      rw [HeaderItems.tokens, List.append_assoc, List.cons_append, parametersFrom_item]
      simp only [parametersFrom, if_true, if_false, show ¬"," = ";" by decide]
      rw [toList_parameter, ih]
      rfl

end Parameters

/-! ## Ports, token by token -/

section Ports

variable (last : Option String) (rest : List Token)

/-- Brackets are passed over with all in them. -/
theorem portsFrom_inside (depth : Nat) (phrase : Phrase) :
    portsFrom (depth + 1) last (phrase.tokens ++ rest) = portsFrom (depth + 1) last rest := by
  induction phrase generalizing depth rest with
  | done => rfl
  | word token inline after ih =>
      have step : portsFrom (depth + 1) last (token :: (after.tokens ++ rest)) =
          portsFrom (depth + 1) last (after.tokens ++ rest) := by
        obtain ⟨kind, text, start, stop⟩ := token
        cases kind with
        | opening | closing => exact absurd inline Bool.false_ne_true
        | identifier | directive | string | other => rfl
      exact step.trans (ih rest depth)
  | group delimiter opener opens inside closer closes after inside_ih ih =>
      obtain ⟨kind, text, start, stop⟩ := opener
      obtain ⟨kind', text', start', stop'⟩ := closer
      cases opens
      cases closes
      rw [Phrase.tokens, List.cons_append, List.append_assoc, List.cons_append]
      exact (inside_ih _ (depth + 1)).trans (ih rest depth)

/-- Outside of brackets the last name counts, if no comma ends the item. -/
theorem portsFrom_outside (phrase : Phrase)
    (clear : ∀ word ∈ phrase.words, isMark "," word = false) :
    portsFrom 0 last (phrase.tokens ++ rest) =
      portsFrom 0 ((lastName? phrase.words).or last) rest := by
  induction phrase generalizing last rest with
  | done => rfl
  | word token inline after ih =>
      have step : portsFrom 0 last (token :: (after.tokens ++ rest)) =
          portsFrom 0 ((if isName token then some token.text else none).or last)
            (after.tokens ++ rest) := by
        have comma := clear token (.head _)
        obtain ⟨kind, text, start, stop⟩ := token
        cases kind with
        | opening | closing => exact absurd inline Bool.false_ne_true
        | directive | string => rfl
        | identifier =>
            simp only [portsFrom, isName, BEq.rfl, Bool.true_and]
            cases isReserved text <;> rfl
        | other =>
            have semicolon : text ≠ ";" := of_decide_eq_true inline
            have comma : text ≠ "," := (isMark_eq_false rfl).1 comma
            simp only [portsFrom, if_neg semicolon, if_neg comma]
            rfl
      rw [Phrase.tokens, List.cons_append, step,
        ih _ _ fun word member => clear word (.tail _ member), Phrase.words, lastName?_cons,
        Option.or_assoc]
  | group delimiter opener opens inside closer closes after inside_ih ih =>
      obtain ⟨kind, text, start, stop⟩ := opener
      obtain ⟨kind', text', start', stop'⟩ := closer
      cases opens
      cases closes
      rw [Phrase.tokens, List.cons_append, List.append_assoc, List.cons_append]
      exact (portsFrom_inside last _ 0 inside).trans (ih last rest clear)

/-- **An item is read as the port that it gives**, up to what ends it. -/
theorem portsFrom_item (item : HeaderItem) :
    portsFrom 0 none (item.tokens ++ rest) = portsFrom 0 (some item.port) rest := by
  obtain ⟨type, typed, name, named, dimensions, bracketed, default⟩ := item
  have nameTaken : ∀ before more, portsFrom 0 before (name :: more) =
      portsFrom 0 (some name.text) more := by
    intro before more
    rw [isName, Bool.and_eq_true, beq_iff_eq, Bool.not_eq_true'] at named
    obtain ⟨kind, text, start, stop⟩ := name
    obtain ⟨rfl, free⟩ := named
    simp only [portsFrom, free, Bool.false_eq_true, if_false]
  rw [HeaderItem.tokens, List.append_assoc, List.cons_append, List.append_assoc,
    portsFrom_outside _ _ type fun word member => (typed word member).1, nameTaken,
    portsFrom_outside _ _ dimensions (by rw [bracketed]; exact nofun), bracketed]
  cases default with
  | none => rfl
  | some default =>
      obtain ⟨⟨kind, text, start, stop⟩, isEquals, value, closed⟩ := default
      obtain ⟨rfl, rfl⟩ := isMark_iff.1 isEquals
      rw [HeaderItem.defaultTokens, List.cons_append]
      simp only [portsFrom, if_false, show ¬"=" = ";" by decide, show ¬"=" = "," by decide]
      rw [portsFrom_outside _ _ value closed]
      simp only [HeaderItem.port]
      cases lastName? value.words <;> rfl

/-- **The items of a list are read one by one.** -/
theorem portsFrom_items {closer : Token} {delimiter : Delimiter}
    (closes : closer.kind = .closing delimiter) (items : HeaderItems) :
    portsFrom 0 none (items.tokens ++ closer :: rest) = items.list.map HeaderItem.port := by
  obtain ⟨kind, text, start, stop⟩ := closer
  cases closes
  induction items with
  | done => rfl
  | last item =>
      rw [HeaderItems.tokens, portsFrom_item]
      rfl
  | more item comma isComma others ih =>
      obtain ⟨kind, text, start, stop⟩ := comma
      obtain ⟨rfl, rfl⟩ := isMark_iff.1 isComma
      rw [HeaderItems.tokens, List.append_assoc, List.cons_append, portsFrom_item]
      simp only [portsFrom, if_true, if_false, show ¬"," = ";" by decide]
      rw [ih]
      rfl

end Ports

/-! ## The parameters as one group -/

section Group

variable (rest : List Token)

theorem afterGroup?_word (depth : Nat) {token : Token} (inline : isInline token = true) :
    afterGroup? depth (token :: rest) = afterGroup? depth rest := by
  obtain ⟨kind, text, start, stop⟩ := token
  cases kind with
  | opening | closing => exact absurd inline Bool.false_ne_true
  | identifier | directive | string => rfl
  | other => exact if_neg (of_decide_eq_true inline)

theorem afterGroup?_phrase (depth : Nat) (phrase : Phrase) :
    afterGroup? (depth + 1) (phrase.tokens ++ rest) = afterGroup? (depth + 1) rest := by
  induction phrase generalizing depth rest with
  | done => rfl
  | word token inline after ih =>
      rw [Phrase.tokens, List.cons_append, afterGroup?_word _ _ inline, ih]
  | group delimiter opener opens inside closer closes after inside_ih ih =>
      obtain ⟨kind, text, start, stop⟩ := opener
      obtain ⟨kind', text', start', stop'⟩ := closer
      cases opens
      cases closes
      rw [Phrase.tokens, List.cons_append, List.append_assoc, List.cons_append]
      exact (inside_ih _ (depth + 1)).trans (ih rest depth)

theorem isInline_of_isMark {text : String} {token : Token} (mark : isMark text token = true)
    (other : text ≠ ";") : isInline token = true := by
  obtain ⟨kind, same⟩ := isMark_iff.1 mark
  rw [isInline, kind, same]
  exact decide_eq_true other

theorem isInline_of_isName {token : Token} (name : isName token = true) : isInline token = true := by
  rw [isName, Bool.and_eq_true, beq_iff_eq] at name
  rw [isInline, name.1]

theorem afterGroup?_item (depth : Nat) (item : HeaderItem) :
    afterGroup? (depth + 1) (item.tokens ++ rest) = afterGroup? (depth + 1) rest := by
  rw [HeaderItem.tokens, List.append_assoc, List.cons_append, List.append_assoc,
    afterGroup?_phrase, afterGroup?_word _ _ (isInline_of_isName item.named), afterGroup?_phrase,
    HeaderItem.defaultTokens]
  cases item.default with
  | none => rfl
  | some default =>
      rw [List.cons_append, afterGroup?_word _ _ (isInline_of_isMark default.isEquals (by decide)),
        afterGroup?_phrase]

theorem afterGroup?_items (depth : Nat) (items : HeaderItems) :
    afterGroup? (depth + 1) (items.tokens ++ rest) = afterGroup? (depth + 1) rest := by
  induction items with
  | done => rfl
  | last item => exact afterGroup?_item rest depth item
  | more item comma isComma others ih =>
      rw [HeaderItems.tokens, List.append_assoc, List.cons_append, afterGroup?_item,
        afterGroup?_word _ _ (isInline_of_isMark isComma (by decide)), ih]

theorem afterGroup?_group (group : ItemGroup) :
    afterGroup? 0 (group.tokens ++ rest) = some rest := by
  obtain ⟨⟨kind, text, start, stop⟩, opens, items, ⟨kind', text', start', stop'⟩, closes⟩ := group
  cases opens
  cases closes
  rw [ItemGroup.tokens, List.cons_append, List.append_assoc]
  exact afterGroup?_items _ 0 items

end Group

/-! ## Headers -/

theorem parametersOf_header (header : Header) (rest : List Token) :
    parametersOf (header.tokens ++ rest) =
      header.parameters.items.list.map HeaderItem.parameter := by
  obtain ⟨hash, isHash, ⟨opener, opens, items, closer, closes⟩, ports⟩ := header
  rw [Header.tokens, List.cons_append, List.append_assoc, ItemGroup.tokens, List.cons_append,
    List.append_assoc, parametersOf, if_pos ⟨isHash, opens⟩]
  exact parametersFrom_items _ closes items

theorem portsOf_header (header : Header) (rest : List Token) :
    portsOf (header.tokens ++ rest) = header.ports.items.list.map HeaderItem.port := by
  obtain ⟨hash, isHash, parameters, ⟨opener, opens, items, closer, closes⟩⟩ := header
  rw [Header.tokens, List.cons_append, List.append_assoc, portsOf]
  dsimp only
  rw [if_pos isHash, afterGroup?_group, ItemGroup.tokens, List.cons_append, List.append_assoc]
  dsimp only
  rw [if_pos opens]
  exact portsFrom_items _ closes items

/-- **What is read from a header.** Each item of the first list gives a parameter and each item of
the second one a port, in order. A parameter has the name that is declared, unless its unpacked
dimensions end with another one, and always its default as written. A port has the name that is
declared, unless its default has another one outside of brackets at the end. -/
theorem names_of_header (header : Header) (rest : List Token) :
    (parametersOf (header.tokens ++ rest) =
        header.parameters.items.list.map HeaderItem.parameter ∧
      portsOf (header.tokens ++ rest) = header.ports.items.list.map HeaderItem.port) ∧
    (parametersOf (header.tokens ++ rest) =
        header.parameters.items.list.map HeaderItem.declaredParameter ↔
      ∀ item ∈ header.parameters.items.list, ∀ name ∈ lastName? item.dimensions.tokens,
        name = item.name.text) ∧
    (portsOf (header.tokens ++ rest) = header.ports.items.list.map HeaderItem.declaredPort ↔
      ∀ item ∈ header.ports.items.list, ∀ default ∈ item.default,
        ∀ name ∈ lastName? default.value.words, name = item.name.text) := by
  rw [parametersOf_header, portsOf_header]
  refine ⟨⟨rfl, rfl⟩, List.map_inj_left.trans (forall₂_congr fun item _ => ?_),
    List.map_inj_left.trans (forall₂_congr fun item _ => ?_)⟩
  · rw [HeaderItem.parameter, HeaderItem.declaredParameter, Parameter.mk.injEq]
    cases lastName? item.dimensions.tokens <;> simp
  · rw [HeaderItem.port, HeaderItem.declaredPort]
    cases item.default with
    | none => simp
    | some default =>
        simp only [Option.mem_def, Option.some.injEq, forall_eq']
        cases lastName? default.value.words <;> simp

/-- A parameter with an unpacked dimension and a port with a default, as they are lexed. -/
def dimensionHeader : Header where
  hash := ⟨.other, "#", 0, 1⟩
  isHash := rfl
  parameters :=
    { opener := ⟨.opening .paren, "(", 1, 2⟩
      opens := rfl
      items := .last
        { type := .word ⟨.identifier, "parameter", 2, 11⟩ rfl
            (.word ⟨.identifier, "int", 12, 15⟩ rfl .done)
          typed := by decide
          name := ⟨.identifier, "A", 16, 17⟩
          named := by decide
          dimensions := .group .bracket ⟨.opening .bracket, "[", 18, 19⟩ rfl
            (.word ⟨.identifier, "N", 19, 20⟩ rfl .done) ⟨.closing .bracket, "]", 20, 21⟩ rfl .done
          bracketed := rfl
          default := some
            { equals := ⟨.other, "=", 22, 23⟩
              isEquals := rfl
              value := .word ⟨.other, "4", 24, 25⟩ rfl .done
              closed := by decide } }
      closer := ⟨.closing .paren, ")", 25, 26⟩
      closes := rfl }
  ports :=
    { opener := ⟨.opening .paren, "(", 27, 28⟩
      opens := rfl
      items := .last
        { type := .word ⟨.identifier, "input", 28, 33⟩ rfl .done
          typed := by decide
          name := ⟨.identifier, "a", 34, 35⟩
          named := by decide
          dimensions := .done
          bracketed := rfl
          default := some
            { equals := ⟨.other, "=", 36, 37⟩
              isEquals := rfl
              value := .word ⟨.identifier, "B", 38, 39⟩ rfl .done
              closed := by decide } }
      closer := ⟨.closing .paren, ")", 39, 40⟩
      closes := rfl }

/-- **Names of dimensions and defaults are taken for declared ones.** -/
theorem names_of_dimensionHeader :
    dimensionHeader.tokens = tokens "#(parameter int A [N] = 4) (input a = B)".toList ∧
      parametersOf dimensionHeader.tokens = [⟨"N", "4"⟩] ∧
      portsOf dimensionHeader.tokens = ["B"] ∧
      dimensionHeader.parameters.items.list.map HeaderItem.declaredParameter = [⟨"A", "4"⟩] ∧
      dimensionHeader.ports.items.list.map HeaderItem.declaredPort = ["a"] := by
  decide +kernel

end SvServer.Unit
