import SvServer.Proofs.Unit.Outline

/-!
# Two walks that differ in their places

Two walks stay parallel, with the same outline and the same targets found on the way, as long as
their tokens have the same kinds and texts and see the same around them. Includes and expansions keep
them parallel as well.
-/

namespace SvServer.Unit

open Hdl

variable {δ : Type} {facts : Declaration → δ}

/-- Two states that differ in places, and in the targets that were found early. -/
structure Parallel (facts : Declaration → δ) (early early' : List String) (state state' : State) :
    Prop where
  outline : state'.outline facts = state.outline facts
  targets : ∃ later, state.targets = early ++ later ∧ state'.targets = early' ++ later

namespace Parallel

variable {early early' : List String} {state state' : State}

theorem definitions (same : Parallel facts early early' state state') :
    state'.definitions = state.definitions := congrArg Outline.definitions same.outline

/-- A step that adds the same targets, if any, and does the same to the outlines. -/
theorem step (same : Parallel facts early early' state state') {after after' : State}
    (target : Option String) (targets : after.targets = state.targets ++ target.toList)
    (targets' : after'.targets = state'.targets ++ target.toList)
    (outline : after'.outline facts = after.outline facts) :
    Parallel facts early early' after after' := by
  obtain ⟨later, found, found'⟩ := same.targets
  refine ⟨outline, later ++ target.toList, ?_, ?_⟩
  · rw [targets, found, List.append_assoc]
  · rw [targets', found', List.append_assoc]

/-- A step that finds no target. -/
theorem quiet (same : Parallel facts early early' state state') {after after' : State}
    (targets : after.targets = state.targets) (targets' : after'.targets = state'.targets)
    (outline : after'.outline facts = after.outline facts) :
    Parallel facts early early' after after' :=
  same.step none (targets.trans (List.append_nil _).symm) (targets'.trans (List.append_nil _).symm)
    outline

theorem report (same : Parallel facts early early' state state') {d d' : Diagnostic}
    (name : d'.name = d.name) :
    Parallel facts early early' (state.report d) (state'.report d') :=
  same.quiet rfl rfl (by rw [outline_report, outline_report, same.outline, name])

theorem find (same : Parallel facts early early' state state') (path path' : Path)
    (range range' : Range) {finding finding' : Finding} (name : finding'.name = finding.name) :
    Parallel facts early early' (state.find path range finding)
      (state'.find path' range' finding') := same.report name

theorem update (same : Parallel facts early early' state state')
    (change : Definitions → Definitions) :
    Parallel facts early early' { state with definitions := change state.definitions }
      { state' with definitions := change state'.definitions } := by
  refine same.quiet rfl rfl ?_
  rw [same.definitions]
  exact congrArg (fun outline : Outline δ =>
    { outline with definitions := change state.definitions }) same.outline

theorem find? (same : Parallel facts early early' state state') (path path' : Path)
    (range range' : Range) (finding : Option Finding) :
    Parallel facts early early' (state.find? path range finding)
      (state'.find? path' range' finding) := by
  cases finding with
  | none => exact same
  | some finding => exact same.find path path' range range' rfl

theorem addFile (same : Parallel facts early early' state state') (path : Path)
    (revision revision' : Option Nat) :
    Parallel facts early early' (state.addFile path revision) (state'.addFile path revision') :=
  same.quiet rfl rfl same.outline

theorem addMissing (same : Parallel facts early early' state state') (name : String) :
    Parallel facts early early' (state.addMissing name) (state'.addMissing name) :=
  same.quiet rfl rfl same.outline

/-- A check does the same to both outlines if the two tokens are the same and see the same. -/
theorem outline_inspect (placeless : Placeless facts)
    (same : Parallel facts early early' state state')
    {file file' : SourceFile} {token token' : Token} {rest rest' : List Token}
    {look look' : Lookback} (plainly : plain token' = plain token)
    (opens : ∀ next, opensBlock token.text look' next = opensBlock token.text look next)
    (ahead : token.kind = .identifier → outlook facts file'.path token' rest' =
      outlook facts file.path token rest) :
    (state'.inspect file' token' rest' look').outline facts =
      (state.inspect file token rest look).outline facts := by
  rw [Unit.outline_inspect _ _ _ _ _ placeless, Unit.outline_inspect _ _ _ _ _ placeless,
    same.outline, plainly]
  by_cases word : token.kind = .identifier
  · rw [opensBlock_outlook facts file'.path, opensBlock_outlook facts file.path, ahead word,
      (Prod.mk.inj plainly).2, opens]
  · exact (state.outline facts).inspect_of_ne word _ _ _ _

/-- **A check keeps states parallel** if the two tokens are the same and see the same. -/
theorem inspect (placeless : Placeless facts) (same : Parallel facts early early' state state')
    {file file' : SourceFile} {token token' : Token} {rest rest' : List Token}
    {look look' : Lookback} (plainly : plain token' = plain token)
    (opens : ∀ next, opensBlock token.text look' next = opensBlock token.text look next)
    (starts : look'.startsItem = look.startsItem)
    (ahead : token.kind = .identifier → outlook facts file'.path token' rest' =
      outlook facts file.path token rest) :
    Parallel facts early early' (state.inspect file token rest look)
      (state'.inspect file' token' rest' look') := by
  refine same.step ((state.outline facts).target? (plain token) look.startsItem
    (outlook facts file.path token rest).isTarget) (targets_inspect ..) ?_
    (same.outline_inspect placeless plainly opens ahead)
  rw [targets_inspect facts, same.outline, plainly, starts]
  by_cases word : token.kind = .identifier
  · rw [ahead word]
  · simp only [Outline.target?, plain, beq_false_of_ne word, Bool.false_and]

end Parallel

/-! ## Walks -/

/-- A relation of walks that holds on as long as their tokens are the same and see the same. -/
structure Tied (facts : Declaration → δ) (related : Walk → Walk → Prop) : Prop where
  outline {walk walk' : Walk} : related walk walk' →
    walk'.state.outline facts = walk.state.outline facts
  keep {walk walk' : Walk} {state state' : State} : related walk walk' →
    (∀ early early', Parallel facts early early' walk.state walk'.state →
      Parallel facts early early' state state') →
    related ⟨state, walk.look⟩ ⟨state', walk'.look⟩
  inspect {walk walk' : Walk} {file file' : SourceFile} {token token' : Token}
    {rest rest' : List Token} : related walk walk' → plain token' = plain token →
    (token.kind = .identifier → outlook facts file'.path token' rest' =
      outlook facts file.path token rest) →
    related ⟨walk.state.inspect file token rest walk.look, walk.look.push token⟩
      ⟨walk'.state.inspect file' token' rest' walk'.look, walk'.look.push token'⟩

/-- Two walks that are parallel and have the same behind them. -/
structure ParallelWalks (facts : Declaration → δ) (early early' : List String)
    (walk walk' : Walk) : Prop where
  state : Parallel facts early early' walk.state walk'.state
  look : walk'.look.gist = walk.look.gist

theorem tied_parallelWalks (placeless : Placeless facts) (early early' : List String) :
    Tied facts (ParallelWalks facts early early') where
  outline same := same.state.outline
  keep same kept := ⟨kept early early' same.state, same.look⟩
  inspect := by
    intro walk walk' file file' token token' rest rest' same plainly ahead
    refine ⟨same.state.inspect placeless plainly (fun _ => opensBlock_congr same.look _ _)
      (startsItem_congr same.look) ahead, ?_⟩
    rw [Lookback.push, Lookback.push, (Prod.mk.inj plainly).2, Lookback.gist, Lookback.gist,
      (Prod.mk.inj same.look).1]

namespace Tied

variable {related : Walk → Walk → Prop} {walk walk' : Walk}

theorem definitions (tied : Tied facts related) (same : related walk walk') :
    walk'.state.definitions = walk.state.definitions :=
  congrArg Outline.definitions (tied.outline same)

theorem isObjectLike (tied : Tied facts related) (same : related walk walk') (name : String) :
    walk'.state.isObjectLike name = walk.state.isObjectLike name := by
  rw [State.isObjectLike, State.isObjectLike, tied.definitions same]

theorem find (tied : Tied facts related) (same : related walk walk') (path path' : Path)
    (range range' : Range) (finding : Finding) :
    related { walk with state := walk.state.find path range finding }
      { walk' with state := walk'.state.find path' range' finding } :=
  tied.keep same fun _ _ states => states.find path path' range range' rfl

end Tied

/-! ## Tokens ahead without their places -/

/-- A token that stands nowhere. -/
def unplaced (token : Token) : Token := { token with start := 0, stop := 0 }

theorem map_unplaced {words words' : List Token} (plainly : words'.map plain = words.map plain) :
    words'.map unplaced = words.map unplaced := by
  have rebuilt (words : List Token) : words.map unplaced =
      (words.map plain).map fun token => ⟨token.1, token.2, 0, 0⟩ := by
    rw [List.map_map]
    rfl
  rw [rebuilt, rebuilt, plainly]

/-- The ports of a header whose parameters have been passed. -/
def portsAfter : Option (List Token) → List String
  | some (opener :: rest) => if opener.kind = .opening .paren then portsFrom 0 none rest else []
  | _ => []

theorem portsOf_cons (hash : Token) (rest : List Token) :
    portsOf (hash :: rest) =
      portsAfter (if hash.text = "#" then afterGroup? 0 rest else some (hash :: rest)) := rfl

section Unplaced

variable (words : List Token)

theorem afterGroup?_unplaced (depth : Nat) :
    afterGroup? depth (words.map unplaced) = (afterGroup? depth words).map (List.map unplaced) := by
  fun_induction afterGroup? depth words with
  | case1 => rfl
  | _ => simp_all [afterGroup?, unplaced]

theorem declaredName?_unplaced (count : Nat) :
    declaredName? count (words.map unplaced) =
      (declaredName? count words).map fun found => (unplaced found.1, found.2.map unplaced) := by
  fun_induction declaredName? count words with
  | case1 => rfl
  | case2 count =>
      cases count <;> rfl
  | case3 count token rest name =>
      have name' : ((unplaced token).kind == .identifier && (unplaced token).text ≠ "automatic" &&
        (unplaced token).text ≠ "static") = true := name
      rw [List.map_cons, declaredName?, if_pos name']
      rfl
  | case4 count token rest other ih =>
      have other' : ¬((unplaced token).kind == .identifier && (unplaced token).text ≠ "automatic" &&
        (unplaced token).text ≠ "static") = true := other
      rw [List.map_cons, declaredName?, if_neg other', ih]

theorem parametersFrom_unplaced (depth : Nat) (item : ParameterItem) :
    parametersFrom depth item (words.map unplaced) = parametersFrom depth item words := by
  induction words generalizing depth item with
  | nil => rfl
  | cons token rest ih =>
      obtain ⟨kind, text, start, stop⟩ := token
      cases kind <;> cases depth <;>
        simp only [List.map_cons, unplaced, parametersFrom, ParameterItem.take, ih]

theorem portsFrom_unplaced (depth : Nat) (last : Option String) :
    portsFrom depth last (words.map unplaced) = portsFrom depth last words := by
  induction words generalizing depth last with
  | nil => rfl
  | cons token rest ih =>
      obtain ⟨kind, text, start, stop⟩ := token
      cases kind <;> cases depth <;> simp only [List.map_cons, unplaced, portsFrom, ih]

theorem parametersOf_unplaced : parametersOf (words.map unplaced) = parametersOf words := by
  match words with
  | [] => rfl
  | [_] => rfl
  | hash :: opener :: rest =>
      simp only [List.map_cons, parametersOf, unplaced, parametersFrom_unplaced]

theorem portsAfter_unplaced (start : Option (List Token)) :
    portsAfter (start.map (List.map unplaced)) = portsAfter start := by
  match start with
  | none => rfl
  | some [] => rfl
  | some (opener :: rest) =>
      simp only [Option.map_some, List.map_cons, portsAfter, unplaced, portsFrom_unplaced]

theorem portsOf_unplaced : portsOf (words.map unplaced) = portsOf words := by
  cases words with
  | nil => rfl
  | cons hash rest =>
      rw [portsOf_cons, ← portsAfter_unplaced, List.map_cons, portsOf_cons, afterGroup?_unplaced,
        apply_ite (Option.map (List.map unplaced))]
      rfl

theorem afterBrackets?_unplaced : afterBrackets? (words.map unplaced) =
    (afterBrackets? words).map (List.map unplaced) := by
  rw [afterBrackets?, afterBrackets?, List.length_map]
  generalize words.length = bound
  fun_induction afterBrackets?.go bound words with
  | case1 => rfl
  | case2 => rfl
  | case3 bound token rest opens none =>
      simp only [List.map_cons, afterBrackets?.go, unplaced, opens, if_true, afterGroup?_unplaced, none]
      rfl
  | case4 bound token rest opens after some ih =>
      simp only [List.map_cons, afterBrackets?.go, unplaced, opens, if_true, afterGroup?_unplaced, some]
      exact ih
  | case5 bound token rest other =>
      simp only [List.map_cons, afterBrackets?.go, unplaced, other, if_false]
      rfl

theorem afterParameters?_unplaced : afterParameters? (words.map unplaced) =
    (afterParameters? words).map (List.map unplaced) := by
  match words with
  | [] => rfl
  | [token] =>
      simp only [List.map_cons, List.map_nil, afterParameters?, unplaced]
      split <;> rfl
  | token :: value :: after =>
      simp only [List.map_cons, afterParameters?, unplaced]
      split
      · split
        · exact afterGroup?_unplaced after 1
        · rfl
      · rfl

theorem isInstantiation_unplaced : isInstantiation (words.map unplaced) = isInstantiation words := by
  rw [isInstantiation, isInstantiation, afterParameters?_unplaced]
  match afterParameters? words with
  | none => rfl
  | some [] => rfl
  | some (name :: rest) =>
      simp only [Option.map_some, List.map_cons, unplaced, afterBrackets?_unplaced]
      match afterBrackets? rest with
      | none => rfl
      | some [] => rfl
      | some (_ :: _) => rfl

end Unplaced

theorem declared?_unplaced (path : Path) (kind : DesignElement) (words : List Token) :
    declared? facts path kind (words.map unplaced) = declared? facts path kind words := by
  rw [declared?, declared?, declaredName?_unplaced]
  cases declaredName? nameReach words with
  | none => rfl
  | some found =>
      simp only [Option.map_some, unplaced, parametersOf_unplaced, portsOf_unplaced]

theorem outlook_unplaced (path : Path) (token : Token) (words : List Token) :
    outlook facts path token (words.map unplaced) = outlook facts path token words := by
  have next : (words.map unplaced).head?.map Token.text = words.head?.map Token.text := by
    cases words <;> rfl
  simp only [outlook, next, declared?_unplaced, isInstantiation_unplaced]

theorem outlook_congr (path : Path) {token token' : Token} {rest rest' : List Token}
    (plainly : plain token' = plain token) (ahead : rest'.map plain = rest.map plain) :
    outlook facts path token' rest' = outlook facts path token rest := by
  rw [← outlook_unplaced, map_unplaced ahead, outlook_unplaced, outlook, outlook,
    (Prod.mk.inj plainly).2]

/-! ## Expansions -/

theorem map_plain_bodyTokens (body : String) (site site' : Token) :
    (bodyTokens body site').map plain = (bodyTokens body site).map plain := by
  rw [bodyTokens, bodyTokens, List.map_map, List.map_map]
  rfl

section Expansions

variable {related : Walk → Walk → Prop} (tied : Tied facts related)
variable {file file' : SourceFile} (path : file'.path = file.path)

include tied path

/-- The tokens of a body keep walks related if the uses inside of it do. -/
theorem Tied.walkBody {site site' : Token} {name : String} {expand expand' : String → Walk → Walk}
    (expands : ∀ name walk walk', related walk walk' →
      related (expand name walk) (expand' name walk'))
    {words words' : List Token} {walk walk' : Walk}
    (plainly : words'.map plain = words.map plain) (same : related walk walk') :
    related (walkBody file site name expand words walk)
      (walkBody file' site' name expand' words' walk') := by
  induction words generalizing words' walk walk' with
  | nil =>
      rw [List.map_eq_nil_iff.1 plainly]
      exact same
  | cons token rest ih =>
      obtain ⟨token', rest', rfl, here, behind⟩ := List.map_eq_cons_iff.1 plainly
      obtain ⟨kind, text⟩ := Prod.mk.inj here
      rw [Unit.walkBody, Unit.walkBody, kind, text, tied.isObjectLike same, tied.definitions same]
      split
      · refine ih behind (tied.inspect same here fun _ => ?_)
        rw [path]
        exact outlook_congr file.path here behind
      · split
        · exact ih behind (expands _ _ _ same)
        · split
          · exact ih behind (tied.find same _ _ _ _ _)
          · exact ih behind same

/-- **Expansions keep walks related.** -/
theorem Tied.expand (site site' : Token) (levels : Nat) (name : String) {walk walk' : Walk}
    (same : related walk walk') :
    related (expand file site levels name walk) (expand file' site' levels name walk') := by
  induction levels generalizing name walk walk' with
  | zero => exact same
  | succ levels ih =>
      rw [Unit.expand, Unit.expand, tied.definitions same]
      cases walk.state.definitions[name]? with
      | none => exact same
      | some definition =>
          exact tied.walkBody path (fun name _ _ same => ih name same)
            (map_plain_bodyTokens definition.body site site') same

end Expansions

/-! ## Directives -/

/-- What a directive reads of its line. -/
structure LineReading where
  length : Nat
  /-- The name to define, with the body and whether it has parameters -/
  definition? : Option (String × String × Bool)
  included? : Option String

def lineReading (file : SourceFile) (directive : Token) (rest : List Token) : LineReading where
  length := lineLength file directive rest
  definition? := (operand? file directive rest).map fun name =>
    (name.text, storedBody (Text.slice file.text name.stop (file.lineEnd directive)),
      (Text.dropBytes file.text name.stop).head? == some '(')
  included? := (includeName? file directive rest).map Prod.fst

/-- Whether two compiles resolve names alike, and have the same text for all files that are not
open. -/
structure SameElsewhere (settings settings' : Settings) (stack : List Path) : Prop where
  resolve : settings'.sources.resolve = settings.sources.resolve
  text : ∀ path, stack.contains path = false →
    settings'.sources.text path = settings.sources.text path

theorem SameElsewhere.cons {settings settings' : Settings} {stack : List Path}
    (elsewhere : SameElsewhere settings settings' stack) (path : Path) :
    SameElsewhere settings settings' (path :: stack) := by
  refine ⟨elsewhere.resolve, fun other closed => elsewhere.text other ?_⟩
  rw [List.contains_cons, Bool.or_eq_false_iff] at closed
  exact closed.2

/-- Further files keep states parallel. -/
def Follows (facts : Declaration → δ) :
    (compile? compile?' : Option (SourceFile → State → State)) → Prop
  | none, none => True
  | some compile, some compile' => ∀ {early early' state state'} file,
    Parallel facts early early' state state' →
      Parallel facts early early' (compile file state) (compile' file state')
  | _, _ => False

section Directives

variable {early early' : List String} {state state' : State}
variable {file file' : SourceFile} {directive directive' : Token} {rest rest' : List Token}

/-- Lines that read the same both lack a name, or both have one, with the same behind it. -/
theorem operand?_cases (line : lineReading file' directive' rest' = lineReading file directive rest) :
    (operand? file directive rest = none ∧ operand? file' directive' rest' = none) ∨
    ∃ name name', operand? file directive rest = some name ∧
      operand? file' directive' rest' = some name' ∧ name'.text = name.text ∧
      storedBody (Text.slice file'.text name'.stop (file'.lineEnd directive')) =
        storedBody (Text.slice file.text name.stop (file.lineEnd directive)) ∧
      ((Text.dropBytes file'.text name'.stop).head? == some '(') =
        ((Text.dropBytes file.text name.stop).head? == some '(') := by
  have read := congrArg LineReading.definition? line
  dsimp only [lineReading] at read
  cases found : operand? file directive rest with
  | none =>
      rw [found] at read
      exact .inl ⟨rfl, Option.map_eq_none_iff.1 read⟩
  | some name =>
      rw [found, Option.map_some] at read
      obtain ⟨name', found', equal⟩ := Option.map_eq_some_iff.1 read
      obtain ⟨named, equal⟩ := Prod.mk.inj equal
      exact .inr ⟨name, name', rfl, found', named, Prod.mk.inj equal⟩

/-- Lines that read the same both include nothing, or the same name. -/
theorem includeName?_cases
    (line : lineReading file' directive' rest' = lineReading file directive rest) :
    (includeName? file directive rest = none ∧ includeName? file' directive' rest' = none) ∨
    ∃ name range range', includeName? file directive rest = some (name, range) ∧
      includeName? file' directive' rest' = some (name, range') := by
  have read := congrArg LineReading.included? line
  dsimp only [lineReading] at read
  cases found : includeName? file directive rest with
  | none =>
      rw [found] at read
      exact .inl ⟨rfl, Option.map_eq_none_iff.1 read⟩
  | some site =>
      rw [found, Option.map_some] at read
      obtain ⟨site', found', equal⟩ := Option.map_eq_some_iff.1 read
      exact .inr ⟨site.1, site.2, site'.2, rfl, by rw [found', ← equal]⟩

theorem parallel_define (same : Parallel facts early early' state state')
    (settings settings' : Settings)
    (line : lineReading file' directive' rest' = lineReading file directive rest) :
    Parallel facts early early' (state.define settings file directive rest)
      (state'.define settings' file' directive' rest') := by
  rw [State.define, State.define]
  rcases operand?_cases line with
    ⟨found, found'⟩ | ⟨name, name', found, found', named, body, functionLike⟩ <;> rw [found, found']
  · exact same.find _ _ _ _ rfl
  · dsimp only
    rw [named, body, functionLike, same.definitions]
    have reported (clashes : Bool) {d d' : Diagnostic} (name : d'.name = d.name) :
        Parallel facts early early' (if clashes then state.report d else state)
          (if clashes then state'.report d' else state') := by
      cases clashes with
      | false => exact same
      | true => exact same.report name
    generalize storedBody (Text.slice file.text name.stop (file.lineEnd directive)) = body,
      ((Text.dropBytes file.text name.stop).head? == some '(') = functionLike
    refine (reported _ ?_).update (·.insert name.text ⟨body, functionLike, false⟩)
    rfl

theorem parallel_includeFile (same : Parallel facts early early' state state')
    {settings settings' : Settings} {stack : List Path}
    (elsewhere : SameElsewhere settings settings' stack) (path : file'.path = file.path)
    {compile? compile?' : Option (SourceFile → State → State)}
    (follows : Follows facts compile? compile?') (name : String) (range range' : Range) :
    Parallel facts early early' (state.includeFile settings stack compile? file name range)
      (state'.includeFile settings' stack compile?' file' name range') := by
  rw [State.includeFile, State.includeFile, elsewhere.resolve, path]
  cases settings.sources.resolve name file.path.directory with
  | none => exact (same.addMissing name).find _ _ _ _ rfl
  | some target =>
      dsimp only
      split
      case isTrue => exact same.find _ _ _ _ rfl
      case isFalse closed =>
        rcases compile? with _ | compile <;> rcases compile?' with _ | compile'
        case none.none => exact same.find _ _ _ _ rfl
        case none.some => cases follows
        case some.none => cases follows
        case some.some =>
          dsimp only
          rw [elsewhere.text target ((Bool.not_eq_true _).mp closed)]
          cases settings.sources.text target with
          | none => exact (same.addMissing name).find _ _ _ _ rfl
          | some text => exact follows _ (same.addFile target _ _)

/-- **A directive keeps states parallel** if it reads the same of its line. -/
theorem parallel_directive (same : Parallel facts early early' state state')
    {settings settings' : Settings} {stack : List Path}
    (elsewhere : SameElsewhere settings settings' stack) (path : file'.path = file.path)
    {compile? compile?' : Option (SourceFile → State → State)}
    (follows : Follows facts compile? compile?') (text : directive'.text = directive.text)
    (kind : directive.kind = .directive)
    (line : takesLine directive = true →
      lineReading file' directive' rest' = lineReading file directive rest) :
    Parallel facts early early'
      (state.directive settings stack compile? file directive rest).1
      (state'.directive settings' stack compile?' file' directive' rest').1 := by
  have takes (listed : ["define", "undef", "include"].contains directive.text = true) :
      takesLine directive = true := by
    rw [takesLine, kind, listed]
    rfl
  rw [State.directive, State.directive, text]
  split
  case h_1 keyword =>
    exact parallel_define same settings settings' (line (takes (by rw [keyword]; rfl)))
  case h_2 keyword =>
    rcases operand?_cases (line (takes (by rw [keyword]; rfl))) with
      ⟨found, found'⟩ | ⟨name, name', found, found', named, -⟩ <;> rw [found, found']
    · exact same.find _ _ _ _ rfl
    · dsimp only
      rw [named]
      exact same.update (·.erase name.text)
  case h_3 => exact same.update fun _ => ∅
  case h_4 keyword =>
    rcases includeName?_cases (line (takes (by rw [keyword]; rfl))) with
      ⟨found, found'⟩ | ⟨name, range, range', found, found'⟩ <;> rw [found, found']
    · exact same.find _ _ _ _ rfl
    · exact parallel_includeFile same elsewhere path follows name range range'
  case h_5 =>
    rw [same.definitions]
    split
    · exact same
    · split
      · exact same
      · exact same.find _ _ _ _ rfl

end Directives

end SvServer.Unit
