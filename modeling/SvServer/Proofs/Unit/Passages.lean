import SvServer.Proofs.Unit.Edits

/-!
# Text with nested conditional directives

A passage is a stretch of tokens in which every `ifdef` or `ifndef` has its `endif`, with `elsif`
branches between the two and one last `else` branch at most. What a passage means is said by
recursion on its nesting: a chain is its first branch whose condition holds when it is reached, or
else its last branch, and nothing of the other branches counts. A walk over the tokens of a passage
does what the passage means, if no conditional directive stands on a line that another directive
takes. The stack of chains that the walk keeps is as before in the end, and no conditional is
reported.
-/

namespace SvServer

/-- What a unit reports about the balance of conditionals. -/
def UnitReport.imbalances (report : UnitReport) : List Diagnostic :=
  report.diagnostics.filter fun d => d.name = .unbalancedConditional

/-- What a unit reports about the balance of conditionals in one file. -/
def UnitReport.imbalancesAt (report : UnitReport) (path : Path) : List Diagnostic :=
  report.imbalances.filter fun d => path == d.path

namespace Unit

open Hdl

/-! ## Passages -/

mutual

/-- A stretch of tokens with nested conditional directives. -/
inductive Passage where
  | done
  | word (token : Token) (plain : role? token = none) (after : Passage)
  | chain (opener : Token) (opens : role? opener = some .opens) (body : Passage)
      (others : Branches) (after : Passage)

/-- What follows the first branch of a chain, up to its end. -/
inductive Branches where
  | close (closer : Token) (closes : role? closer = some .closes)
  | elsif (directive : Token) (continues : role? directive = some .continues) (body : Passage)
      (others : Branches)
  | otherwise (directive : Token) (last : role? directive = some .otherwise) (body : Passage)
      (closer : Token) (closes : role? closer = some .closes)

end

mutual

/-- The tokens of a passage. -/
def Passage.tokens : Passage → List Token
  | .done => []
  | .word token _ after => token :: after.tokens
  | .chain opener _ body others after =>
    opener :: (body.tokens ++ (others.tokens ++ after.tokens))

def Branches.tokens : Branches → List Token
  | .close closer _ => [closer]
  | .elsif directive _ body others => directive :: (body.tokens ++ others.tokens)
  | .otherwise directive _ body closer _ => directive :: (body.tokens ++ [closer])

end

/-- How many words a passage begins with. -/
def Passage.lead : Passage → Nat
  | .word _ _ after => after.lead + 1
  | .done | .chain _ _ _ _ _ => 0

mutual

/-- What active text does that is a passage with `rest` behind it. The first words, `skip` of them,
belong to a directive before. -/
def Passage.effect (context : Context) :
    Passage → (skip : Nat) → (rest : List Token) → Walk → Effect
  | .done, _, _, walk => ⟨walk, []⟩
  | .word _ _ after, skip + 1, rest, walk => after.effect context skip rest walk
  | .word token _ after, 0, rest, walk =>
    let ahead := after.tokens ++ rest
    (context.act walk token ahead).andThen
      (after.effect context (wordsUsed context.file token ahead) rest)
  | .chain opener _ body others after, _, rest, walk =>
    let behind := after.tokens ++ rest
    let ahead := body.tokens ++ (others.tokens ++ behind)
    let begun := walk.noteMissingName context.file opener ahead
    let branch :=
      if holds walk.state.definitions context.file opener ahead then
        body.effect context (operandLength context.file opener ahead) (others.tokens ++ behind)
          begun
      else others.effect context behind begun
    branch.andThen (after.effect context 0 rest)

/-- What the branches do of which none was taken before. -/
def Branches.effect (context : Context) : Branches → (rest : List Token) → Walk → Effect
  | .close _ _, _, walk => ⟨walk, []⟩
  | .elsif directive _ body others, rest, walk =>
    let ahead := body.tokens ++ (others.tokens ++ rest)
    if holds walk.state.definitions context.file directive ahead then
      body.effect context (operandLength context.file directive ahead) (others.tokens ++ rest) walk
    else others.effect context rest walk
  | .otherwise _ _ body closer _, rest, walk => body.effect context 0 (closer :: rest) walk

end

/-! ## Branches and the stack of chains -/

/-- An `elsif` before the `else` of its chain is active if no branch was taken and its condition
holds, and it is taken if its condition holds. -/
theorem Chain.exists_elsifBranch {chain : Chain} (fresh : chain.seenElse = false)
    (outer : List Chain) (condition : Bool) :
    ∃ next : Chain, Chain.elsifBranch (chain :: outer) condition = (next :: outer, none) ∧
      next.parentActive = chain.parentActive ∧ next.seenElse = false ∧
      next.active = (chain.parentActive && !chain.taken && condition) ∧
      next.taken = (chain.taken || condition) := by
  rw [elsifBranch, fresh]
  exact ⟨_, rfl, rfl, rfl, rfl, rfl⟩

/-- The first `else` of a chain is active if no branch was taken. -/
theorem Chain.exists_elseBranch {chain : Chain} (fresh : chain.seenElse = false)
    (outer : List Chain) :
    ∃ next : Chain, Chain.elseBranch (chain :: outer) = (next :: outer, none) ∧
      next.active = (chain.parentActive && !chain.taken) := by
  rw [elseBranch, fresh]
  exact ⟨_, rfl, rfl⟩

/-! ## Text that is not selected -/

variable {context : Context}

/-- An operand is the word ahead. -/
theorem exists_eq_cons_of_operand? {file : SourceFile} {directive name : Token} {rest : List Token}
    (named : operand? file directive rest = some name) :
    role? name = none ∧ ∃ more, rest = name :: more := by
  rw [operand?, Option.filter_eq_some_iff, Bool.and_eq_true, beq_iff_eq] at named
  obtain ⟨ahead, -, identifier⟩ := named
  exact ⟨by simp [role?, identifier], List.head?_eq_some_iff.1 ahead⟩

/-- In text that is not active it makes no difference whether an operand is passed over. -/
theorem passes_operand (directive : Token) (rest : List Token) {progress : Progress}
    (inactive : Chain.isActive progress.chains = false) :
    Passes context (rest.drop (operandLength context.file directive rest)) progress [] rest
      progress := by
  rw [operandLength]
  cases named : operand? context.file directive rest with
  | none => exact .refl rest progress
  | some name =>
      obtain ⟨word, more, rfl⟩ := exists_eq_cons_of_operand? named
      exact (passes_inactive context more word inactive).symm

mutual

/-- **Nothing of a passage counts in text that is not active**, whatever its own conditions are. -/
theorem Passage.passes_unselected (context : Context) : (passage : Passage) →
    (rest : List Token) → (walk : Walk) → (chains : List Chain) → Chain.isActive chains = false →
    Passes context (passage.tokens ++ rest) ⟨walk, chains⟩ [] rest ⟨walk, chains⟩
  | .done, rest, _, _, _ => .refl rest _
  | .word token plain after, rest, walk, chains, inactive =>
    (passes_inactive context _ plain inactive).trans
      (after.passes_unselected context rest walk chains inactive)
  | .chain opener opens body others after, rest, walk, chains, inactive => by
    rw [Passage.tokens, List.cons_append, List.append_assoc, List.append_assoc]
    -- The chain is opened without an active branch, and its branches are passed over.
    have opened := passes_opens context (body.tokens ++ (others.tokens ++ (after.tokens ++ rest)))
      walk chains opens
    simp only [inactive, Bool.false_eq_true, if_false, Chain.openChain, Bool.false_and] at opened
    exact opened.trans ((passes_operand _ _ rfl).trans
      ((body.passes_unselected context _ _ _ rfl).trans
        ((others.passes_unselected context _ _ _ _ rfl (.inl rfl)).trans
          (after.passes_unselected context _ _ _ inactive))))

/-- **Nothing counts of the branches that are left of a chain** once one was taken, or if the chain
stands in text that is not active. -/
theorem Branches.passes_unselected (context : Context) : (branches : Branches) →
    (rest : List Token) → (walk : Walk) → (chain : Chain) → (outer : List Chain) →
    chain.seenElse = false →
    chain.parentActive = false ∨ chain.taken = true →
    Passes context (branches.tokens ++ rest) ⟨walk, chain :: outer⟩ [] rest ⟨walk, outer⟩
  | .close closer closes, rest, walk, chain, outer, _, _ =>
    passes_closes context rest walk (chain :: outer) closes
  | .elsif directive continues body others, rest, walk, chain, outer, fresh, spent => by
    rw [Branches.tokens, List.cons_append, List.append_assoc]
    have stepped := passes_continues context (body.tokens ++ (others.tokens ++ rest)) walk
      (chain :: outer) continues
    obtain ⟨next, branch, parent, seen, active, taken⟩ := Chain.exists_elsifBranch fresh outer
      (holds walk.state.definitions context.file directive
        (body.tokens ++ (others.tokens ++ rest)))
    rw [branch] at stepped
    have inactive : Chain.isActive (next :: outer) = false := by
      rw [Chain.isActive, active]
      rcases spent with spent | spent <;> simp [spent]
    have spent' : next.parentActive = false ∨ next.taken = true := by
      rw [parent, taken]
      exact spent.imp_right fun taken => by rw [taken, Bool.true_or]
    exact stepped.trans ((passes_operand _ _ inactive).trans
      ((body.passes_unselected context _ _ _ inactive).trans
        (others.passes_unselected context _ _ _ _ seen spent')))
  | .otherwise directive last body closer closes, rest, walk, chain, outer, fresh, spent => by
    rw [Branches.tokens, List.cons_append, List.append_assoc]
    have stepped := passes_otherwise context (body.tokens ++ ([closer] ++ rest)) walk
      (chain :: outer) last
    obtain ⟨next, branch, active⟩ := Chain.exists_elseBranch fresh outer
    rw [branch] at stepped
    have inactive : Chain.isActive (next :: outer) = false := by
      rw [Chain.isActive, active]
      rcases spent with spent | spent <;> simp [spent]
    exact stepped.trans ((body.passes_unselected context _ _ _ inactive).trans
      (passes_closes context rest walk (next :: outer) closes))

end

/-! ## Active text -/

/-- No conditional directive stands on a line that a directive before it takes. -/
def SourceFile.ClearLines (file : SourceFile) (words : List Token) : Prop :=
  words.Pairwise fun directive next =>
    takesLine directive = true → (role? next).isSome = true → file.lineEnd directive ≤ next.start

instance (file : SourceFile) (words : List Token) : Decidable (file.ClearLines words) :=
  inferInstanceAs (Decidable (words.Pairwise _))

theorem SourceFile.ClearLines.of_suffix {file : SourceFile} {words after : List Token}
    (clear : file.ClearLines words) (suffix : after <:+ words) : file.ClearLines after :=
  List.Pairwise.sublist suffix.sublist clear

/-- The tokens begin with a conditional directive, if there are any. -/
def Stops (words : List Token) : Prop :=
  ∀ token ∈ words.head?, (role? token).isSome = true

theorem stops_branches (branches : Branches) (rest : List Token) :
    Stops (branches.tokens ++ rest) := by
  intro token first
  cases branches with
  | close closer closes =>
      cases first
      rw [closes]
      rfl
  | elsif directive continues body others =>
      cases first
      rw [continues]
      rfl
  | otherwise directive last body closer closes =>
      cases first
      rw [last]
      rfl

theorem lineLength_le_lead {file : SourceFile} {directive : Token} (rest : List Token)
    (stops : Stops rest) : (passage : Passage) →
    (∀ next ∈ passage.tokens ++ rest, (role? next).isSome = true →
      file.lineEnd directive ≤ next.start) →
    lineLength file directive (passage.tokens ++ rest) ≤ passage.lead
  | .done, clear => by
    cases rest with
    | nil => exact Nat.le_refl 0
    | cons next more =>
        have off := clear next (.head _) (stops next rfl)
        rw [Passage.tokens, List.nil_append, lineLength,
          List.takeWhile_cons_of_neg (by simpa using off)]
        exact Nat.le_refl 0
  | .word token plain after, clear => by
    have further := lineLength_le_lead rest stops after fun next member =>
      clear next (.tail _ member)
    rw [lineLength] at further
    rw [Passage.tokens, List.cons_append, lineLength, List.takeWhile_cons, Passage.lead]
    split
    · exact Nat.succ_le_succ further
    · exact Nat.zero_le _
  | .chain opener opens body others after, clear => by
    have off := clear opener (.head _) (by rw [opens]; rfl)
    rw [Passage.tokens, List.cons_append, lineLength,
      List.takeWhile_cons_of_neg (by simpa using off)]
    exact Nat.le_refl 0

theorem operandLength_le_lead (file : SourceFile) (directive : Token) (passage : Passage)
    {rest : List Token} (stops : Stops rest) :
    operandLength file directive (passage.tokens ++ rest) ≤ passage.lead := by
  rw [operandLength]
  cases named : operand? file directive (passage.tokens ++ rest) with
  | none => exact Nat.zero_le _
  | some name =>
      obtain ⟨word, more, ahead⟩ := exists_eq_cons_of_operand? named
      cases passage with
      | word => exact Nat.succ_le_succ (Nat.zero_le _)
      | done =>
          have conditional := stops name (by rw [show rest = name :: more from ahead]; rfl)
          rw [word] at conditional
          cases conditional
      | chain opener opens =>
          cases ahead
          rw [word] at opens
          cases opens

/-- Lines that other directives take end within the words that follow them. -/
theorem wordsUsed_le_lead {file : SourceFile} {token : Token} {passage : Passage}
    {rest : List Token} (stops : Stops rest)
    (clear : file.ClearLines (token :: (passage.tokens ++ rest))) :
    wordsUsed file token (passage.tokens ++ rest) ≤ passage.lead := by
  rw [wordsUsed]
  cases takes : takesLine token with
  | false => exact Nat.zero_le _
  | true =>
      exact lineLength_le_lead rest stops passage fun next member =>
        (List.pairwise_cons.1 clear).1 next member takes

/-- A walk over the passage does what it means, where the text is active and a conditional directive
follows, if anything. -/
def Passage.Sound (context : Context) (passage : Passage) : Prop :=
  ∀ (skip : Nat) (rest : List Token) (walk : Walk) (chains : List Chain), skip ≤ passage.lead →
    Stops rest → context.file.ClearLines (passage.tokens ++ rest) → Chain.isActive chains = true →
    Passes context ((passage.tokens ++ rest).drop skip) ⟨walk, chains⟩
      (passage.effect context skip rest walk).acts rest
      ⟨(passage.effect context skip rest walk).walk, chains⟩

/-- A walk over the branches does what they mean, where none was taken before. -/
def Branches.Sound (context : Context) (branches : Branches) : Prop :=
  ∀ (rest : List Token) (walk : Walk) (chain : Chain) (outer : List Chain),
    context.file.ClearLines (branches.tokens ++ rest) → chain.seenElse = false →
    chain.parentActive = true → chain.taken = false →
    Passes context (branches.tokens ++ rest) ⟨walk, chain :: outer⟩
      (branches.effect context rest walk).acts rest
      ⟨(branches.effect context rest walk).walk, outer⟩

/-- A branch whose condition holds is selected, and what follows it in its chain is passed over.
With a condition that does not hold it is the other way round. -/
theorem passes_branch {body : Passage} {others : Branches} (body_sound : body.Sound context)
    (others_sound : others.Sound context) (directive : Token) (rest : List Token) (walk : Walk)
    {chain : Chain} (outer : List Chain) {condition : Bool}
    (clear : context.file.ClearLines (body.tokens ++ (others.tokens ++ rest)))
    (fresh : chain.seenElse = false) (parent : chain.parentActive = true)
    (active : chain.active = condition) (taken : chain.taken = condition) :
    let ahead := body.tokens ++ (others.tokens ++ rest)
    let effect :=
      if condition then
        body.effect context (operandLength context.file directive ahead) (others.tokens ++ rest)
          walk
      else others.effect context rest walk
    Passes context (ahead.drop (operandLength context.file directive ahead)) ⟨walk, chain :: outer⟩
      effect.acts rest ⟨effect.walk, outer⟩ := by
  cases condition with
  | true =>
      exact (body_sound _ _ walk (chain :: outer)
        (operandLength_le_lead context.file directive body (stops_branches others rest))
        (stops_branches others rest) clear active).silent
          (others.passes_unselected context rest _ chain outer fresh (.inr taken))
  | false =>
      have inactive : Chain.isActive (chain :: outer) = false := active
      exact (passes_operand directive _ inactive).trans
        ((body.passes_unselected context _ walk _ inactive).trans
          (others_sound rest walk chain outer
            (clear.of_suffix (List.suffix_append body.tokens _)) fresh parent taken))

mutual

/-- **A walk over active text with nested conditionals does what the text means.** -/
theorem Passage.sound : (passage : Passage) → passage.Sound context
  | .done, 0, rest, walk, chains, _, _, _, _ => .refl rest _
  | .word token plain after, skip + 1, rest, walk, chains, inside, stops, clear, active =>
    after.sound skip rest walk chains (Nat.le_of_succ_le_succ inside) stops
      (clear.of_suffix (List.suffix_cons token _)) active
  | .word token plain after, 0, rest, walk, chains, _, stops, clear, active =>
    (passes_active context (after.tokens ++ rest) plain active).trans
      (after.sound _ rest _ chains (wordsUsed_le_lead stops clear) stops
        (clear.of_suffix (List.suffix_cons token _)) active)
  | .chain opener opens body others after, 0, rest, walk, chains, _, stops, clear, active => by
    rw [Passage.tokens, List.cons_append, List.append_assoc, List.append_assoc] at clear ⊢
    have inner := clear.of_suffix (List.suffix_cons opener _)
    have behind := (inner.of_suffix (List.suffix_append body.tokens _)).of_suffix
      (List.suffix_append others.tokens _)
    have opened := passes_opens context (body.tokens ++ (others.tokens ++ (after.tokens ++ rest)))
      walk chains opens
    rw [active, if_pos rfl, Chain.openChain, active, Bool.true_and] at opened
    exact opened.trans
      ((passes_branch body.sound others.sound opener (after.tokens ++ rest) _ chains inner rfl rfl
        rfl rfl).trans (after.sound 0 rest _ chains (Nat.zero_le _) stops behind active))

/-- **A walk over the branches of a chain does what they mean.** -/
theorem Branches.sound : (branches : Branches) → branches.Sound context
  | .close closer closes, rest, walk, chain, outer, _, _, _, _ =>
    passes_closes context rest walk (chain :: outer) closes
  | .elsif directive continues body others, rest, walk, chain, outer, clear, fresh, parent,
      untaken => by
    rw [Branches.tokens, List.cons_append, List.append_assoc] at clear ⊢
    have stepped := passes_continues context (body.tokens ++ (others.tokens ++ rest)) walk
      (chain :: outer) continues
    obtain ⟨next, branch, parent', fresh', active, taken⟩ := Chain.exists_elsifBranch fresh outer
      (holds walk.state.definitions context.file directive
        (body.tokens ++ (others.tokens ++ rest)))
    rw [branch] at stepped
    rw [parent, untaken] at active
    rw [untaken] at taken
    exact stepped.trans (passes_branch body.sound others.sound directive rest walk outer
      (clear.of_suffix (List.suffix_cons directive _)) fresh' (parent'.trans parent) active taken)
  | .otherwise directive last body closer closes, rest, walk, chain, outer, clear, fresh, parent,
      untaken => by
    rw [Branches.tokens, List.cons_append, List.append_assoc] at clear ⊢
    have stepped := passes_otherwise context (body.tokens ++ ([closer] ++ rest)) walk
      (chain :: outer) last
    obtain ⟨next, branch, selected⟩ := Chain.exists_elseBranch fresh outer
    rw [branch] at stepped
    rw [parent, untaken] at selected
    exact stepped.trans ((body.sound 0 (closer :: rest) walk (next :: outer) (Nat.zero_le _)
      (stops_branches (.close closer closes) rest) (clear.of_suffix (List.suffix_cons directive _))
      selected).silent (passes_closes context rest _ (next :: outer) closes))

end

mutual

/-- What a passage means is done by the acts listed for it, and nothing of it is about the balance
of conditionals. -/
theorem Passage.edits_effect {allowed : Diagnostic → Prop} (admits : Admits allowed context.file)
    (follows : context.Follows allowed) : (passage : Passage) → (skip : Nat) →
    (rest : List Token) → (walk : Walk) →
    Edits allowed walk.state (passage.effect context skip rest walk).acts
      (passage.effect context skip rest walk).walk.state
  | .done, _, _, walk => .refl walk.state
  | .word _ _ after, skip + 1, rest, walk => after.edits_effect admits follows skip rest walk
  | .word _ _ after, 0, rest, walk =>
    (Context.edits_act admits follows walk).andThen (after.edits_effect admits follows _ rest)
  | .chain opener _ body others after, _, rest, walk => by
    rw [Passage.effect]
    refine .andThen ?_ (after.edits_effect admits follows 0 rest)
    split
    · exact .silent (edits_noteMissingName admits walk opener _)
        (body.edits_effect admits follows _ _ _)
    · exact .silent (edits_noteMissingName admits walk opener _)
        (others.edits_effect admits follows _ _)

theorem Branches.edits_effect {allowed : Diagnostic → Prop} (admits : Admits allowed context.file)
    (follows : context.Follows allowed) : (branches : Branches) → (rest : List Token) →
    (walk : Walk) →
    Edits allowed walk.state (branches.effect context rest walk).acts
      (branches.effect context rest walk).walk.state
  | .close _ _, _, walk => .refl walk.state
  | .elsif directive _ body others, rest, walk => by
    rw [Branches.effect]
    split
    · exact body.edits_effect admits follows _ _ _
    · exact others.edits_effect admits follows _ _
  | .otherwise _ _ body closer _, rest, walk => body.edits_effect admits follows 0 _ walk

end

/-! ## Files -/

/-- **Conditional compilation selects the right branches.** A file whose conditional directives are
nested comes to what its text means, act by act, whatever is around it and in whatever state it is
begun. No conditional of it is reported. -/
theorem compileFile_of_nested (settings : Settings) (room : Nat) (stack : List Path)
    (file : SourceFile) (state : State) {passage : Passage}
    (nested : passage.tokens = tokens file.text) (clear : file.ClearLines (tokens file.text)) :
    let meaning := passage.effect (Context.ofFile settings room stack file) 0 []
      ⟨state.begin file, .start⟩
    compileFile settings room stack file state = meaning.walk.state ∧
      fileActs settings room stack file state = meaning.acts ∧
      (compileFile settings room stack file state).result.imbalancesAt file.path =
        state.result.imbalancesAt file.path := by
  intro meaning
  let context := Context.ofFile settings room stack file
  rw [← nested] at clear
  have sound : passage.Sound context := passage.sound
  have passes := sound 0 [] ⟨state.begin file, .start⟩ [] (Nat.zero_le _) nofun
    (by rwa [List.append_nil]) rfl
  rw [List.append_nil, List.drop_zero, nested] at passes
  have compiled : compileFile settings room stack file state = meaning.walk.state := by
    rw [compileFile_eq_close, passes.walk, Context.walk_nil]
    rfl
  refine ⟨compiled, ?_, ?_⟩
  · rw [fileActs_eq, passes.acts, Context.acts_nil, List.append_nil]
  · -- What is included is not at the path of the file, and nothing else reports a conditional.
    let elsewhere : Diagnostic → Prop := fun d =>
      d.name = .unbalancedConditional → (file.path == d.path) = false
    have admits : Admits elsewhere context.file := fun d _ plain name => by
      rw [name] at plain
      cases plain
    have follows : context.Follows elsewhere :=
      follows_ofFile settings room stack file fun d unopened _ _ => by
        rw [List.contains_cons, Bool.or_eq_false_iff, BEq.comm] at unopened
        exact unopened.1
    have edits : Edits elsewhere state meaning.acts meaning.walk.state :=
      (edits_begin admits).silent
        (passage.edits_effect admits follows 0 [] ⟨state.begin file, .start⟩)
    rw [compiled, UnitReport.imbalancesAt, UnitReport.imbalances, List.filter_filter,
      UnitReport.imbalancesAt, UnitReport.imbalances, List.filter_filter]
    refine edits.filter_diagnostics _ (fun d structural => ?_) (fun d allowed => ?_)
    · cases name : d.name <;> simp_all [DiagnosticName.isStructural]
    · by_cases name : d.name = .unbalancedConditional
      · rw [allowed name, Bool.false_and]
      · rw [decide_eq_false name, Bool.and_false]

/-- A chain in the last branch of another one: a definition, and a word after it. -/
def nestedFile : SourceFile :=
  ⟨.ofString "/p/top.sv", "`ifdef A\n`else\n`ifndef B\n`define B 1\n`endif\nend\n`endif\n".toList⟩

def nestedPassage : Passage :=
  .chain ⟨.directive, "ifdef", 0, 6⟩ (by decide)
    (.word ⟨.identifier, "A", 7, 8⟩ (by decide) .done)
    (.otherwise ⟨.directive, "else", 9, 14⟩ (by decide)
      (.chain ⟨.directive, "ifndef", 15, 22⟩ (by decide)
        (.word ⟨.identifier, "B", 23, 24⟩ (by decide)
          (.word ⟨.directive, "define", 25, 32⟩ (by decide)
            (.word ⟨.identifier, "B", 33, 34⟩ (by decide)
              (.word ⟨.other, "1", 35, 36⟩ (by decide) .done))))
        (.close ⟨.directive, "endif", 37, 43⟩ (by decide))
        (.word ⟨.identifier, "end", 44, 47⟩ (by decide) .done))
      ⟨.directive, "endif", 48, 54⟩ (by decide))
    .done

/-- Without definitions both of them are reached, and `end` is all that there is to report. -/
theorem compileFile_of_nested_chain :
    let settings : Settings := ⟨⟨fun _ => none, fun _ _ => none, fun _ => none⟩, .empty, .warning⟩
    let state := State.initial nestedFile.path .empty
    nestedPassage.tokens = tokens nestedFile.text ∧ nestedFile.ClearLines (tokens nestedFile.text) ∧
      (fileActs settings 0 [] nestedFile state).length = 2 ∧
      (compileFile settings 0 [] nestedFile state).result.diagnostics.length = 1 ∧
      (compileFile settings 0 [] nestedFile state).result.imbalancesAt nestedFile.path = [] := by
  intro settings state
  have nested : nestedPassage.tokens = tokens nestedFile.text := by decide +kernel
  have clear : nestedFile.ClearLines (tokens nestedFile.text) := by decide +kernel
  obtain ⟨compiled, acts, balanced⟩ :=
    compileFile_of_nested settings 0 [] nestedFile state nested clear
  refine ⟨nested, clear, ?_, ?_, balanced⟩
  · rw [acts]
    decide +kernel
  · rw [compiled]
    decide +kernel

end Unit

end SvServer
