import SvServer.Proofs.Unit.Parallel

/-!
# Walks that stay related

One step of a walk, and then a whole walk, through tokens that are the same for both sides. Each
token sees the same and each directive reads the same of its line; then the related walks stay
related, and both use up as many tokens (`Tied.step`, `Tied.walk`). So do whole files that have the
same text (`follows_compiler?`).
-/

namespace SvServer.Unit

open Hdl

variable {δ : Type} {facts : Declaration → δ}

/-! ## Conditionals -/

/-- A chain without its place. -/
def Chain.gist (chain : Chain) : Bool × Bool × Bool × Bool :=
  (chain.parentActive, chain.active, chain.taken, chain.seenElse)

namespace Chain

variable {chains chains' : List Chain}

/-- Chains that differ in places are of one length, and the first ones differ in their places. -/
theorem gist_cases (same : chains'.map gist = chains.map gist) :
    (chains = [] ∧ chains' = []) ∨ ∃ parent active taken seen range range' outer outer',
      chains = ⟨parent, active, taken, seen, range⟩ :: outer ∧
        chains' = ⟨parent, active, taken, seen, range'⟩ :: outer' ∧
        outer'.map gist = outer.map gist := by
  cases chains with
  | nil => exact .inl ⟨rfl, List.map_eq_nil_iff.1 same⟩
  | cons chain outer =>
      obtain ⟨chain', outer', rfl, here, behind⟩ := List.map_eq_cons_iff.1 same
      obtain ⟨parent, active, taken, seen, range⟩ := chain
      obtain ⟨parent', active', taken', seen', range'⟩ := chain'
      simp only [gist, Prod.mk.injEq] at here
      obtain ⟨rfl, rfl, rfl, rfl⟩ := here
      exact .inr ⟨_, _, _, _, _, _, _, _, rfl, rfl, behind⟩

theorem isActive_congr (same : chains'.map gist = chains.map gist) :
    isActive chains' = isActive chains := by
  obtain ⟨rfl, rfl⟩ | ⟨_, _, _, _, _, _, _, _, rfl, rfl, -⟩ := gist_cases same <;> rfl

theorem openChain_congr (same : chains'.map gist = chains.map gist) (condition : Bool)
    (range range' : Range) :
    (openChain chains' condition range').map gist =
      (openChain chains condition range).map gist := by
  rw [openChain, openChain, isActive_congr same, List.map_cons, List.map_cons, same]
  rfl

theorem elsifBranch_congr (same : chains'.map gist = chains.map gist) (condition : Bool) :
    (elsifBranch chains' condition).1.map gist = (elsifBranch chains condition).1.map gist ∧
      (elsifBranch chains' condition).2 = (elsifBranch chains condition).2 := by
  obtain ⟨rfl, rfl⟩ | ⟨_, _, _, seen, _, _, _, _, rfl, rfl, behind⟩ := gist_cases same
  · exact ⟨rfl, rfl⟩
  · cases seen <;> exact ⟨congrArg (List.cons _) behind, rfl⟩

theorem elseBranch_congr (same : chains'.map gist = chains.map gist) :
    (elseBranch chains').1.map gist = (elseBranch chains).1.map gist ∧
      (elseBranch chains').2 = (elseBranch chains).2 := by
  obtain ⟨rfl, rfl⟩ | ⟨_, _, _, seen, _, _, _, _, rfl, rfl, behind⟩ := gist_cases same
  · exact ⟨rfl, rfl⟩
  · cases seen <;> exact ⟨congrArg (List.cons _) behind, rfl⟩

theorem closeChain_congr (same : chains'.map gist = chains.map gist) :
    (closeChain chains').1.map gist = (closeChain chains).1.map gist ∧
      (closeChain chains').2 = (closeChain chains).2 := by
  obtain ⟨rfl, rfl⟩ | ⟨_, _, _, _, _, _, _, _, rfl, rfl, behind⟩ := gist_cases same
  · exact ⟨rfl, rfl⟩
  · exact ⟨behind, rfl⟩

end Chain

/-! ## Steps -/

/-- Two walks through a file that are related and are in the same branches. -/
structure Abreast (related : Walk → Walk → Prop) (progress progress' : Progress) : Prop where
  walk : related progress.walk progress'.walk
  chains : progress'.chains.map Chain.gist = progress.chains.map Chain.gist

/-- Two contexts in which all further files are alike. -/
structure Beside (facts : Declaration → δ) (context context' : Context) : Prop where
  stack : context'.stack = context.stack
  elsewhere : SameElsewhere context.settings context'.settings context.stack
  path : context'.file.path = context.file.path
  follows : Follows facts context.compile? context'.compile?

/-- The name that follows a directive on its line. -/
def operandName (file : SourceFile) (directive : Token) (rest : List Token) : Option String :=
  (operand? file directive rest).map Token.text

theorem operandName_eq (file : SourceFile) (directive : Token) (rest : List Token) :
    operandName file directive rest = (lineReading file directive rest).definition?.map Prod.fst := by
  rw [operandName, lineReading, Option.map_map]
  rfl

theorem role?_congr {token token' : Token} (plainly : plain token' = plain token) :
    role? token' = role? token := by
  rw [role?, role?, (Prod.mk.inj plainly).1, (Prod.mk.inj plainly).2]

/-- Whether a directive asks for the name that follows it on its line, to select a branch. -/
def takesOperand (token : Token) : Bool :=
  role? token = some .opens || role? token = some .continues

theorem kind_of_takesOperand {token : Token} (takes : takesOperand token = true) :
    token.kind = .directive := by
  rw [takesOperand, Bool.or_eq_true, decide_eq_true_eq, decide_eq_true_eq] at takes
  rcases takes with known | known <;> exact (role?_eq_some.1 known).1

theorem kind_of_takesLine {token : Token} (takes : takesLine token = true) :
    token.kind = .directive := by
  rw [takesLine, Bool.and_eq_true, decide_eq_true_eq] at takes
  exact takes.1

theorem role?_of_takesLine {token : Token} (takes : takesLine token = true) :
    role? token = none := by
  rw [takesLine, Bool.and_eq_true] at takes
  cases known : role? token with
  | none => rfl
  | some role =>
      obtain ⟨-, keyword⟩ := role?_eq_some.1 known
      cases role with
      | opens => rcases keyword with keyword | keyword <;> rw [keyword] at takes <;>
          exact absurd takes.2 (by decide)
      | continues | otherwise | closes =>
          rw [show token.text = _ from keyword] at takes
          exact absurd takes.2 (by decide)

theorem takesLine_congr {token token' : Token} (plainly : plain token' = plain token) :
    takesLine token' = takesLine token := by
  rw [takesLine, takesLine, (Prod.mk.inj plainly).1, (Prod.mk.inj plainly).2]

section Steps

variable {related : Walk → Walk → Prop} (tied : Tied facts related)
variable {progress progress' : Progress}
variable {token token' : Token} {rest rest' : List Token}

include tied

theorem Tied.afterBranch (same : Abreast related progress progress') (file file' : SourceFile)
    {step step' : List Chain × Option Finding}
    (chains : step'.1.map Chain.gist = step.1.map Chain.gist) (finding : step'.2 = step.2) :
    Abreast related (progress.afterBranch file token step)
      (progress'.afterBranch file' token' step') := by
  refine ⟨tied.keep same.walk fun _ _ states => ?_, chains⟩
  rw [finding]
  exact states.find? _ _ _ _ _

/-- A conditional directive keeps walks related if both have the same name behind it. -/
theorem Tied.conditional (same : Abreast related progress progress') {file file' : SourceFile}
    (plainly : plain token' = plain token)
    (operand : takesOperand token = true →
      operandName file' token' rest' = operandName file token rest)
    {role : Role} (known : role? token = some role) : ∃ after after' used,
      progress.conditional? file token rest = some (after, used) ∧
      progress'.conditional? file' token' rest' = some (after', used) ∧
      Abreast related after after' := by
  have text := (Prod.mk.inj plainly).2
  have named (operand : operandName file' token' rest' = operandName file token rest) :
      (operand? file' token' rest').isSome = (operand? file token rest).isSome := by
    have same := congrArg Option.isSome operand
    rwa [operandName, operandName, Option.isSome_map, Option.isSome_map] at same
  have defined (operand : operandName file' token' rest' = operandName file token rest) :
      (operand? file' token' rest').any
          (fun name => progress'.walk.state.definitions.contains name.text) =
        (operand? file token rest).any fun name =>
          progress.walk.state.definitions.contains name.text := by
    have same' := congrArg (Option.any progress.walk.state.definitions.contains) operand
    rw [operandName, operandName, Option.any_map, Option.any_map] at same'
    rw [tied.definitions same.walk]
    exact same'
  obtain ⟨-, keyword⟩ := role?_eq_some.1 known
  rw [Progress.conditional?, Progress.conditional?]
  dsimp only
  rw [text]
  cases role with
  | opens =>
      have operand := operand (by rw [takesOperand, known]; rfl)
      have unnamed : (operand? file' token' rest').isNone = (operand? file token rest).isNone := by
        rw [← Option.not_isSome, ← Option.not_isSome, named operand]
      rw [named operand, defined operand, unnamed, Chain.isActive_congr same.chains]
      -- A chain is opened alike, and a missing name is reported in both walks.
      have opened (condition : Bool) (finding : Option Finding) : Abreast related
          (progress.afterBranch file token
            (Chain.openChain progress.chains condition (file.tokenRange token), finding))
          (progress'.afterBranch file' token'
            (Chain.openChain progress'.chains condition (file'.tokenRange token'), finding)) :=
        tied.afterBranch same file file' (Chain.openChain_congr same.chains condition _ _) rfl
      rcases keyword with keyword | keyword <;> rw [keyword]
      · exact ⟨_, _, _, rfl, rfl, opened _ _⟩
      · exact ⟨_, _, _, rfl, rfl, opened _ _⟩
  | continues =>
      have operand := operand (by rw [takesOperand, known]; rfl)
      rw [named operand, defined operand, show token.text = "elsif" from keyword]
      have branch := Chain.elsifBranch_congr same.chains
      exact ⟨_, _, _, rfl, rfl, tied.afterBranch same file file' (branch _).1 (branch _).2⟩
  | otherwise =>
      rw [show token.text = "else" from keyword]
      have branch := Chain.elseBranch_congr same.chains
      exact ⟨_, _, _, rfl, rfl, tied.afterBranch same file file' branch.1 branch.2⟩
  | closes =>
      rw [show token.text = "endif" from keyword]
      have branch := Chain.closeChain_congr same.chains
      exact ⟨_, _, _, rfl, rfl, tied.afterBranch same file file' branch.1 branch.2⟩

variable {context context' : Context}

/-- What an active token calls for keeps walks related. -/
theorem Tied.act (beside : Beside facts context context') {walk walk' : Walk}
    (same : related walk walk') (plainly : plain token' = plain token)
    (ahead : token.kind = .identifier → outlook facts context.file.path token' rest' =
      outlook facts context.file.path token rest)
    (line : takesLine token = true →
      lineReading context'.file token' rest' = lineReading context.file token rest) :
    related (context.act walk token rest).walk (context'.act walk' token' rest').walk := by
  obtain ⟨kind, text⟩ := Prod.mk.inj plainly
  rw [Context.act, Context.act, kind, text, tied.isObjectLike same]
  split
  case isTrue directive =>
    split
    · exact tied.expand beside.path _ _ _ _ same
    · refine tied.keep same fun _ _ states => ?_
      rw [beside.stack]
      exact parallel_directive states beside.elsewhere beside.path beside.follows text directive line
  case isFalse =>
    refine tied.inspect same plainly fun word => ?_
    rw [beside.path]
    exact ahead word

/-- **A step keeps walks related**, if the token sees the same and a directive reads the same of its
line. Both sides use up as many tokens. -/
theorem Tied.step (beside : Beside facts context context') (same : Abreast related progress progress')
    (plainly : plain token' = plain token)
    (ahead : Chain.isActive progress.chains = true → token.kind = .identifier →
      outlook facts context.file.path token' rest' = outlook facts context.file.path token rest)
    (operand : takesOperand token = true →
      operandName context'.file token' rest' = operandName context.file token rest)
    (line : Chain.isActive progress.chains = true → takesLine token = true →
      lineReading context'.file token' rest' = lineReading context.file token rest) :
    Abreast related (context.step progress token rest).1 (context'.step progress' token' rest').1 ∧
      (context'.step progress' token' rest').2 = (context.step progress token rest).2 := by
  cases known : role? token with
  | some role =>
      have directive := (role?_eq_some.1 known).1
      obtain ⟨after, after', used, acted, acted', both⟩ :=
        tied.conditional same plainly operand known
      have known' := (role?_congr plainly).trans known
      rw [Context.step, Context.step, Progress.step, Progress.step, if_pos directive,
        if_pos (role?_eq_some.1 known').1, isObjectLike_of_role known, isObjectLike_of_role known',
        acted, acted']
      simp only [Bool.and_false, Bool.false_eq_true, if_false]
      exact ⟨both, trivial⟩
  | none =>
      rw [context.step_of_word _ _ known,
        context'.step_of_word _ _ ((role?_congr plainly).trans known),
        Chain.isActive_congr same.chains]
      split
      case isFalse => exact ⟨same, rfl⟩
      case isTrue active =>
        refine ⟨⟨tied.act beside same.walk plainly (ahead active) (line active), same.chains⟩, ?_⟩
        rw [wordsUsed, wordsUsed, takesLine_congr plainly]
        split
        case isFalse => rfl
        case isTrue takes => exact congrArg LineReading.length (line active takes)

end Steps

/-! ## Walks -/

/-- Tokens that have the same kinds and texts, and whose directives read the same of their lines. -/
inductive SameWords (file file' : SourceFile) : List Token → List Token → Prop
  | nil : SameWords file file' [] []
  | cons {token token' : Token} {rest rest' : List Token} (plainly : plain token' = plain token)
      (line : token.kind = .directive →
        lineReading file' token' rest' = lineReading file token rest)
      (behind : SameWords file file' rest rest') : SameWords file file' (token :: rest) (token' :: rest')

namespace SameWords

variable {file file' : SourceFile} {words words' : List Token}

theorem refl (file : SourceFile) : (words : List Token) → SameWords file file words words
  | [] => .nil
  | _ :: rest => .cons rfl (fun _ => rfl) (refl file rest)

theorem plainly (same : SameWords file file' words words') : words'.map plain = words.map plain := by
  induction same with
  | nil => rfl
  | cons plainly _ _ ih => rw [List.map_cons, List.map_cons, plainly, ih]

theorem drop (same : SameWords file file' words words') (count : Nat) :
    SameWords file file' (words.drop count) (words'.drop count) := by
  induction same generalizing count with
  | nil => rw [List.drop_nil]; exact .nil
  | cons plainly line behind ih =>
      cases count with
      | zero => exact .cons plainly line behind
      | succ count => exact ih count

end SameWords

/-- **A walk through the same tokens keeps walks related.** -/
theorem Tied.walk {related : Walk → Walk → Prop} (tied : Tied facts related)
    {context context' : Context} (beside : Beside facts context context') {words words' : List Token}
    (alike : SameWords context.file context'.file words words') {progress progress' : Progress}
    (same : Abreast related progress progress') :
    Abreast related (context.walk words progress) (context'.walk words' progress') := by
  induction size : words.length using Nat.strongRecOn
    generalizing words words' progress progress' with
  | ind size ih =>
      cases alike with
      | nil =>
          rw [context.walk_nil, context'.walk_nil]
          exact same
      | @cons token token' rest rest' plainly line behind =>
          obtain ⟨stepped, used⟩ := tied.step beside same plainly
            (fun _ _ => outlook_congr context.file.path plainly behind.plainly)
            (fun takes => by
              rw [operandName_eq, operandName_eq, line (kind_of_takesOperand takes)])
            (fun _ takes => line (kind_of_takesLine takes))
          rw [context.walk_cons, context'.walk_cons, used]
          refine ih _ ?_ (behind.drop _) stepped rfl
          rw [← size, List.length_drop, List.length_cons]
          omega

/-! ## Files -/

section Files

variable {early early' : List String} {state state' : State}

/-- What is found item by item keeps states parallel. -/
theorem Parallel.foldl {α κ : Type} (key : α → κ) {step step' : State → α → State}
    (steps : ∀ {state state'} a b, key b = key a → Parallel facts early early' state state' →
      Parallel facts early early' (step state a) (step' state' b))
    {items items' : List α} (keys : items'.map key = items.map key)
    (same : Parallel facts early early' state state') :
    Parallel facts early early' (items.foldl step state) (items'.foldl step' state') := by
  induction items generalizing items' state state' with
  | nil =>
      rw [List.map_eq_nil_iff.1 keys]
      exact same
  | cons a items ih =>
      obtain ⟨b, others, rfl, here, behind⟩ := List.map_eq_cons_iff.1 keys
      rw [List.foldl_cons, List.foldl_cons]
      exact ih behind (steps a b here same)

theorem Parallel.begin (same : Parallel facts early early' state state') {file file' : SourceFile}
    (errors : (lexicalErrors file'.text).map LexicalError.kind =
      (lexicalErrors file.text).map LexicalError.kind) :
    Parallel facts early early' (state.begin file) (state'.begin file') :=
  Parallel.foldl LexicalError.kind
    (fun _ _ kind states => states.find _ _ _ _ (by rw [kind])) errors same

theorem Parallel.close {related : Walk → Walk → Prop} {progress progress' : Progress}
    (same : Abreast related progress progress')
    (states : Parallel facts early early' progress.walk.state progress'.walk.state)
    (file file' : SourceFile) :
    Parallel facts early early' (progress.close file) (progress'.close file') :=
  Parallel.foldl Chain.gist (fun _ _ _ states => states.find _ _ _ _ rfl)
    (by rw [List.map_reverse, List.map_reverse, same.chains]) states

end Files

/-- A file keeps states parallel if the files that it includes do. -/
theorem parallel_compileFile_of_follows (placeless : Placeless facts) {settings settings' : Settings}
    {room : Nat} {stack : List Path} (elsewhere : SameElsewhere settings settings' stack)
    (follows : ∀ path, Follows facts (compiler? settings room (path :: stack))
      (compiler? settings' room (path :: stack)))
    (file : SourceFile) {early early' : List String} {state state' : State}
    (same : Parallel facts early early' state state') :
    Parallel facts early early' (compileFile settings room stack file state)
      (compileFile settings' room stack file state') := by
  have beside : Beside facts (Context.ofFile settings room stack file)
      (Context.ofFile settings' room stack file) :=
    ⟨rfl, elsewhere.cons file.path, rfl, follows file.path⟩
  have tied := tied_parallelWalks placeless early early'
  have start : Abreast (ParallelWalks facts early early') ⟨⟨state.begin file, .start⟩, []⟩
      ⟨⟨state'.begin file, .start⟩, []⟩ := ⟨⟨same.begin rfl, rfl⟩, rfl⟩
  have walked := tied.walk beside (.refl file (tokens file.text)) start
  rw [compileFile_eq_close, compileFile_eq_close]
  exact Parallel.close walked walked.walk.state file file

/-- **Further files keep states parallel**, where the sources differ in open files only. -/
theorem follows_compiler? (placeless : Placeless facts) {settings settings' : Settings}
    (room : Nat) {stack : List Path} (elsewhere : SameElsewhere settings settings' stack) :
    Follows facts (compiler? settings room stack) (compiler? settings' room stack) := by
  induction room generalizing stack with
  | zero => trivial
  | succ room ih =>
      intro early early' state state' file same
      exact parallel_compileFile_of_follows placeless elsewhere
        (fun path => ih (elsewhere.cons path)) file same

end SvServer.Unit
