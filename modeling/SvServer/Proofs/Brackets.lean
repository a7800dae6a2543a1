/-!
# Brackets

A word of openers and closers is well bracketed if every opener has its own closer behind it, with a
well-bracketed word between them. A checker keeps a stack of what is open, and has its own way to go
on at a closer that does not go with the innermost opener. However it does that, it has nothing to
complain about if and only if the word is well bracketed. A checker that drains its stack at such a
closer also accounts for every single bracket.
-/

namespace SvServer

/-- A bracket of a word. -/
inductive Bracket (α β : Type) where
  | opener (bracket : α)
  | closer (bracket : β)

/-- Words in which every opener is closed by a closer of its own, properly nested. -/
inductive WellBracketed {α β : Type} (closes : α → β → Bool) : List (Bracket α β) → Prop
  | nil : WellBracketed closes []
  | wrap {opener : α} {closer : β} {inner after : List (Bracket α β)}
      (goes : closes opener closer = true) (inside : WellBracketed closes inner)
      (behind : WellBracketed closes after) :
      WellBracketed closes (.opener opener :: (inner ++ .closer closer :: after))

/-! ## Matching against a stack -/

variable {α β δ : Type} {closes : α → β → Bool}

/-- Whether the word closes all that is open, innermost first, and what it opens itself. -/
def matchesStack (closes : α → β → Bool) : List α → List (Bracket α β) → Bool
  | stack, [] => stack.isEmpty
  | stack, .opener opener :: word => matchesStack closes (opener :: stack) word
  | stack, .closer closer :: word =>
    stack.head?.any (closes · closer) && matchesStack closes stack.tail word

/-- Well-bracketed words with a closer between two of them for each opener of a stack. -/
inductive Closing (closes : α → β → Bool) : List α → List (Bracket α β) → Prop
  | last {word : List (Bracket α β)} (well : WellBracketed closes word) : Closing closes [] word
  | close {top : α} {outer : List α} {closer : β} {inner after : List (Bracket α β)}
      (goes : closes top closer = true) (inside : WellBracketed closes inner)
      (behind : Closing closes outer after) :
      Closing closes (top :: outer) (inner ++ .closer closer :: after)

/-- A well-bracketed word may stand before what closes a stack. -/
theorem Closing.wrap {stack : List α} {opener : α} {closer : β} {inner after : List (Bracket α β)}
    (goes : closes opener closer = true) (inside : WellBracketed closes inner)
    (behind : Closing closes stack after) :
    Closing closes stack (.opener opener :: (inner ++ .closer closer :: after)) := by
  cases behind with
  | last well => exact .last (.wrap goes inside well)
  | close goes' inside' behind' =>
      rename_i top outer closer' inner' after'
      have joined := Closing.close goes' (.wrap goes inside inside') behind'
      rwa [List.cons_append, List.append_assoc, List.cons_append] at joined

theorem closing_of_matchesStack {word : List (Bracket α β)} {stack : List α}
    (matched : matchesStack closes stack word = true) : Closing closes stack word := by
  induction word generalizing stack with
  | nil =>
      cases stack with
      | nil => exact .last .nil
      | cons top outer => cases matched
  | cons bracket word ih =>
      cases bracket with
      | opener opener =>
          cases ih matched with
          | close goes inside behind => exact behind.wrap goes inside
      | closer closer =>
          cases stack with
          | nil => cases matched
          | cons top outer =>
              rw [matchesStack, Bool.and_eq_true] at matched
              have goes : closes top closer = true := matched.1
              exact Closing.close goes .nil (ih matched.2)

theorem matchesStack_append {word : List (Bracket α β)} (well : WellBracketed closes word)
    (stack : List α) (rest : List (Bracket α β)) :
    matchesStack closes stack (word ++ rest) = matchesStack closes stack rest := by
  induction well generalizing stack rest with
  | nil => rfl
  | wrap goes inside behind inside_ih behind_ih =>
      rw [List.cons_append, List.append_assoc, matchesStack, inside_ih, List.cons_append,
        matchesStack, List.head?_cons, Option.any_some, goes, Bool.true_and, List.tail_cons,
        behind_ih]

/-- **A word is well bracketed iff it closes all that it opens.** -/
theorem matchesStack_iff {word : List (Bracket α β)} :
    matchesStack closes [] word = true ↔ WellBracketed closes word := by
  constructor
  · intro matched
    cases closing_of_matchesStack matched with
    | last well => exact well
  · intro well
    rw [← List.append_nil word, matchesStack_append well]
    rfl

instance (closes : α → β → Bool) (word : List (Bracket α β)) :
    Decidable (WellBracketed closes word) :=
  decidable_of_iff (matchesStack closes [] word = true) matchesStack_iff

example : WellBracketed (fun a b : Nat => a == b)
    [.opener 1, .opener 2, .closer 2, .closer 1] := by decide

example : ¬WellBracketed (fun a b : Nat => a == b)
    [.opener 1, .opener 2, .closer 1, .closer 2] := by decide

/-! ## Checkers -/

/-- A stack of openers with complaints about brackets. -/
structure Checked (α δ : Type) where
  stack : List α
  complaints : List δ

/-- A machine that goes on when brackets do not match. -/
structure Checker (α β δ : Type) where
  /-- Whether a closer goes with an opener -/
  closes : α → β → Bool
  /-- What is left open, and what there is to say, at a closer that does not go with the innermost
  opener -/
  recover : List α → β → Checked α δ
  /-- What there is to say about an opener that is still open in the end -/
  unclosed : α → δ
  complains : ∀ stack closer, stack.head?.any (closes · closer) = false →
    (recover stack closer).complaints ≠ []

namespace Checker

variable (checker : Checker α β δ)

def step (state : Checked α δ) : Bracket α β → Checked α δ
  | .opener opener => ⟨opener :: state.stack, state.complaints⟩
  | .closer closer =>
    if state.stack.head?.any (checker.closes · closer) then ⟨state.stack.tail, state.complaints⟩
    else
      let recovered := checker.recover state.stack closer
      ⟨recovered.stack, state.complaints ++ recovered.complaints⟩

/-- A step, if there is a bracket. -/
def step? (state : Checked α δ) : Option (Bracket α β) → Checked α δ
  | some bracket => checker.step state bracket
  | none => state

theorem foldl_filterMap_concat {γ : Type} (bracket? : γ → Option (Bracket α β)) (list : List γ)
    (x : γ) (state : Checked α δ) :
    ((list ++ [x]).filterMap bracket?).foldl checker.step state =
      checker.step? ((list.filterMap bracket?).foldl checker.step state) (bracket? x) := by
  rw [List.filterMap_append, List.foldl_append]
  cases found : bracket? x with
  | none =>
      rw [List.filterMap_cons_none found]
      rfl
  | some bracket =>
      rw [List.filterMap_cons_some found]
      rfl

/-- All complaints in the end. -/
def finish (state : Checked α δ) : List δ :=
  state.complaints ++ state.stack.reverse.map checker.unclosed

/-- What a checker says about a word. -/
def check (word : List (Bracket α β)) : List δ :=
  checker.finish (word.foldl checker.step ⟨[], []⟩)

theorem finish_eq_nil_iff (word : List (Bracket α β)) (state : Checked α δ) :
    checker.finish (word.foldl checker.step state) = [] ↔
      state.complaints = [] ∧ matchesStack checker.closes state.stack word = true := by
  obtain ⟨stack, complaints⟩ := state
  induction word generalizing stack complaints with
  | nil => simp [finish, matchesStack]
  | cons bracket word ih =>
      rw [List.foldl_cons]
      cases bracket with
      | opener opener => exact ih _ _
      | closer closer =>
          rw [step, matchesStack]
          cases goes : stack.head?.any (checker.closes · closer) with
          | true => simpa only [goes, if_true, Bool.true_and] using ih _ _
          | false =>
              -- Once there is a complaint, it stays.
              simp only [Bool.false_eq_true, if_false, ih, List.append_eq_nil_iff,
                checker.complains stack closer goes, Bool.false_and, and_false, false_and]

/-- **A checker is silent on the well-bracketed words, and on no others.** -/
theorem check_eq_nil_iff (word : List (Bracket α β)) :
    checker.check word = [] ↔ WellBracketed checker.closes word := by
  rw [check, finish_eq_nil_iff, matchesStack_iff, and_iff_right rfl]

end Checker

/-! ## Accounts -/

/-- The openers of a word, each with its place. -/
def openersOf (word : List (Bracket α β)) : List (α × Nat) :=
  word.zipIdx.filterMap fun
    | (.opener opener, place) => some (opener, place)
    | (.closer _, _) => none

/-- The closers of a word, each with its place. -/
def closersOf (word : List (Bracket α β)) : List (β × Nat) :=
  word.zipIdx.filterMap fun
    | (.opener _, _) => none
    | (.closer closer, place) => some (closer, place)

theorem nodup_places {γ : Type} {placed? : Bracket α β × Nat → Option (γ × Nat)}
    (keeps : ∀ at_ entry, placed? at_ = some entry → entry.2 = at_.2) (word : List (Bracket α β)) :
    ((word.zipIdx.filterMap placed?).map Prod.snd).Nodup := by
  have places : (word.zipIdx.map Prod.snd).Nodup := by
    rw [List.zipIdx_map_snd]
    exact List.nodup_range'
  refine List.pairwise_map.2 ((List.pairwise_map.1 places).filterMap placed? ?_)
  intro first second apart entry found entry' found'
  rwa [keeps first entry found, keeps second entry' found']

/-- What becomes of each bracket of a word: an opener is closed or unclosed, and a closer closes one
or is stray. -/
structure Account (closes : α → β → Bool) (word : List (Bracket α β)) where
  closed : List ((α × Nat) × (β × Nat))
  unclosed : List (α × Nat)
  stray : List (β × Nat)
  openers : (closed.map Prod.fst ++ unclosed).Perm (openersOf word)
  closers : (closed.map Prod.snd ++ stray).Perm (closersOf word)
  /-- A closer stands behind the opener that it closes, and goes with it. -/
  goes : ∀ pair ∈ closed, pair.1.2 < pair.2.2 ∧ closes pair.1.1 pair.2.1 = true

namespace Account

variable {word : List (Bracket α β)} (account : Account closes word)

/-- Nothing but one thing becomes of an opener. -/
theorem nodup_openers :
    (account.closed.map (fun pair => pair.1.2) ++ account.unclosed.map Prod.snd).Nodup := by
  have places : ((openersOf word).map Prod.snd).Nodup := by
    refine nodup_places (fun at_ entry found => ?_) word
    obtain ⟨bracket, place⟩ := at_
    cases bracket <;> cases found
    rfl
  rw [← (account.openers.map Prod.snd).nodup_iff, List.map_append, List.map_map] at places
  exact places

/-- Nothing but one thing becomes of a closer. -/
theorem nodup_closers :
    (account.closed.map (fun pair => pair.2.2) ++ account.stray.map Prod.snd).Nodup := by
  have places : ((closersOf word).map Prod.snd).Nodup := by
    refine nodup_places (fun at_ entry found => ?_) word
    obtain ⟨bracket, place⟩ := at_
    cases bracket <;> cases found
    rfl
  rw [← (account.closers.map Prod.snd).nodup_iff, List.map_append, List.map_map] at places
  exact places

end Account

/-- The checker that at a closer goes down its stack to an opener that goes with it. What it passes
over is unclosed; if there is no such opener, the closer is stray. -/
def drain (closes : α → β → Bool) (unclosed : α → δ) (stray : β → δ) : Checker α β δ where
  closes := closes
  unclosed := unclosed
  recover stack closer :=
    match stack.dropWhile fun opener => !closes opener closer with
    | [] => ⟨stack, [stray closer]⟩
    | _ :: outer =>
      ⟨outer, (stack.takeWhile fun opener => !closes opener closer).reverse.map unclosed⟩
  complains stack closer unmatched := by
    cases stack with
    | nil => exact List.cons_ne_nil _ _
    | cons top outer =>
        have goes : closes top closer = false := unmatched
        split
        · exact List.cons_ne_nil _ _
        · simp [goes]

section Drain

variable (closes : α → β → Bool) (unclosed : α → δ) (stray : β → δ)

/-- What the checker does at a closer, whether or not it goes with the innermost opener. -/
theorem step_drain (state : Checked α δ) (closer : β) :
    (drain closes unclosed stray).step state (.closer closer) =
      match state.stack.dropWhile fun opener => !closes opener closer with
      | [] => ⟨state.stack, state.complaints ++ [stray closer]⟩
      | _ :: outer => ⟨outer, state.complaints ++
          (state.stack.takeWhile fun opener => !closes opener closer).reverse.map unclosed⟩ := by
  obtain ⟨stack, complaints⟩ := state
  rw [Checker.step]
  cases matched : stack.head?.any ((drain closes unclosed stray).closes · closer) with
  | true =>
      cases stack with
      | nil => cases matched
      | cons top outer =>
          have goes : closes top closer = true := matched
          simp [goes]
  | false =>
      rw [if_neg Bool.false_ne_true]
      simp only [drain]
      cases stack.dropWhile fun opener => !closes opener closer <;> rfl

end Drain

theorem openersOf_concat (word : List (Bracket α β)) (bracket : Bracket α β) :
    openersOf (word ++ [bracket]) = openersOf word ++
      match bracket with
      | .opener opener => [(opener, word.length)]
      | .closer _ => [] := by
  rw [openersOf, List.zipIdx_append, List.filterMap_append, openersOf]
  cases bracket <;> simp

theorem closersOf_concat (word : List (Bracket α β)) (bracket : Bracket α β) :
    closersOf (word ++ [bracket]) = closersOf word ++
      match bracket with
      | .opener _ => []
      | .closer closer => [(closer, word.length)] := by
  rw [closersOf, List.zipIdx_append, List.filterMap_append, closersOf]
  cases bracket <;> simp

/-- What became of the brackets of a word so far, with those that are still open on the stack. -/
structure Ledger (closes : α → β → Bool) (unclosed : α → δ) (stray : β → δ)
    (word : List (Bracket α β)) (state : Checked α δ) where
  closed : List ((α × Nat) × (β × Nat))
  lost : List (α × Nat)
  strays : List (β × Nat)
  stack : List (α × Nat)
  openers : (closed.map Prod.fst ++ (lost ++ stack)).Perm (openersOf word)
  closers : (closed.map Prod.snd ++ strays).Perm (closersOf word)
  goes : ∀ pair ∈ closed, pair.1.2 < pair.2.2 ∧ closes pair.1.1 pair.2.1 = true
  before : ∀ entry ∈ stack, entry.2 < word.length
  open_ : state.stack = stack.map Prod.fst
  said : state.complaints.Perm
    (lost.map (fun entry => unclosed entry.1) ++ strays.map fun entry => stray entry.1)

namespace Ledger

variable {unclosed : α → δ} {stray : β → δ} {word : List (Bracket α β)} {state : Checked α δ}

/-- Nothing became of no bracket. -/
def empty : Ledger closes unclosed stray [] ⟨[], []⟩ where
  closed := []
  lost := []
  strays := []
  stack := []
  openers := .refl _
  closers := .refl _
  goes := nofun
  before := nofun
  open_ := rfl
  said := .refl _

/-- One more opener is on the stack. -/
def push (ledger : Ledger closes unclosed stray word state) (opener : α) :
    Ledger closes unclosed stray (word ++ [.opener opener])
      ((drain closes unclosed stray).step state (.opener opener)) where
  closed := ledger.closed
  lost := ledger.lost
  strays := ledger.strays
  stack := (opener, word.length) :: ledger.stack
  openers := by
    have added := (ledger.openers.cons (opener, word.length)).trans
      (List.perm_append_singleton _ _).symm
    rw [openersOf_concat]
    refine .trans ?_ added
    rw [← List.append_assoc, ← List.append_assoc]
    exact List.perm_middle
  closers := by
    rw [closersOf_concat, List.append_nil]
    exact ledger.closers
  goes := ledger.goes
  before := by
    rw [List.length_append]
    refine List.forall_mem_cons.2 ⟨Nat.lt_succ_self _, fun entry member => ?_⟩
    exact Nat.lt_succ_of_lt (ledger.before entry member)
  open_ := congrArg (opener :: ·) ledger.open_
  said := ledger.said

theorem said_lost (ledger : Ledger closes unclosed stray word state) (skipped : List (α × Nat)) :
    (state.complaints ++ (skipped.map Prod.fst).reverse.map unclosed).Perm
      ((ledger.lost ++ skipped).map (fun entry => unclosed entry.1) ++
        ledger.strays.map fun entry => stray entry.1) := by
  rw [← List.map_reverse, List.map_map, List.map_append, List.append_assoc]
  refine (ledger.said.append ((List.reverse_perm skipped).map _)).trans ?_
  rw [List.append_assoc]
  exact .append_left _ List.perm_append_comm

/-- One more closer is stray, or closes an opener on the stack; those inside of it are lost. -/
theorem nonempty_close (ledger : Ledger closes unclosed stray word state) (closer : β) :
    Nonempty (Ledger closes unclosed stray (word ++ [.closer closer])
      ((drain closes unclosed stray).step state (.closer closer))) := by
  let keeps := fun entry : α × Nat => !closes entry.1 closer
  have keeps_eq : (fun opener => !closes opener closer) ∘ Prod.fst = keeps := rfl
  rw [step_drain, ledger.open_, List.dropWhile_map, List.takeWhile_map, keeps_eq]
  have parts : ledger.stack.takeWhile keeps ++ ledger.stack.dropWhile keeps = ledger.stack :=
    List.takeWhile_append_dropWhile
  generalize ledger.stack.takeWhile keeps = skipped at parts ⊢
  have further : ∀ entry ∈ ledger.stack, entry.2 < (word ++ [Bracket.closer closer]).length := by
    rw [List.length_append]
    exact fun entry member => Nat.lt_succ_of_lt (ledger.before entry member)
  cases rest : ledger.stack.dropWhile keeps with
  | nil =>
      refine ⟨{ ledger with
        strays := ledger.strays ++ [(closer, word.length)]
        openers := ?_, closers := ?_, before := further, open_ := rfl, said := ?_ }⟩
      · rw [openersOf_concat, List.append_nil]
        exact ledger.openers
      · rw [closersOf_concat, ← List.append_assoc]
        exact ledger.closers.append_right _
      · rw [List.map_append, ← List.append_assoc]
        exact ledger.said.append_right _
  | cons entry outer =>
      rw [rest] at parts
      have goes : closes entry.1 closer = true := by
        have first := List.head?_dropWhile_not keeps ledger.stack
        rw [rest] at first
        simpa [keeps] using first
      refine ⟨{
        closed := ledger.closed ++ [(entry, (closer, word.length))]
        lost := ledger.lost ++ skipped
        strays := ledger.strays
        stack := outer
        openers := ?_, closers := ?_, goes := ?_, before := ?_, open_ := rfl
        said := ledger.said_lost skipped }⟩
      · rw [openersOf_concat, List.append_nil]
        refine .trans ?_ ledger.openers
        rw [← parts, List.map_append, List.append_assoc]
        refine .append_left _ ?_
        show (entry :: (ledger.lost ++ skipped ++ outer)).Perm
          (ledger.lost ++ (skipped ++ entry :: outer))
        rw [← List.append_assoc]
        exact List.perm_middle.symm
      · rw [closersOf_concat, List.map_append, List.append_assoc]
        refine .trans ?_ (ledger.closers.append_right _)
        rw [List.append_assoc]
        exact .append_left _ List.perm_append_comm
      · intro pair member
        rcases List.mem_append.1 member with member | member
        · exact ledger.goes pair member
        · rw [List.mem_singleton.1 member]
          exact ⟨ledger.before entry (by rw [← parts]; simp), goes⟩
      · exact fun other member => further other (by rw [← parts]; simp [member])

theorem nonempty_run (rest : List (Bracket α β))
    (ledger : Nonempty (Ledger closes unclosed stray word state)) :
    Nonempty (Ledger closes unclosed stray (word ++ rest)
      (rest.foldl (drain closes unclosed stray).step state)) := by
  induction rest generalizing word state with
  | nil => rwa [List.append_nil]
  | cons bracket rest ih =>
      obtain ⟨ledger⟩ := ledger
      have stepped : Nonempty (Ledger closes unclosed stray (word ++ [bracket])
          ((drain closes unclosed stray).step state bracket)) := by
        cases bracket with
        | opener opener => exact ⟨ledger.push opener⟩
        | closer closer => exact ledger.nonempty_close closer
      have run := ih stepped
      rwa [List.append_assoc] at run

end Ledger

/-- **Every bracket is accounted for**: the checker that drains its stack has one thing to say about
each unclosed opener and each stray closer, and nothing else. -/
theorem exists_account (closes : α → β → Bool) (unclosed : α → δ) (stray : β → δ)
    (word : List (Bracket α β)) :
    ∃ account : Account closes word, ((drain closes unclosed stray).check word).Perm
      (account.unclosed.map (fun entry => unclosed entry.1) ++
        account.stray.map fun entry => stray entry.1) := by
  have begun : Nonempty (Ledger closes unclosed stray [] ⟨[], []⟩) := ⟨.empty⟩
  obtain ⟨ledger⟩ := Ledger.nonempty_run word begun
  rw [List.nil_append] at ledger
  refine ⟨{
    closed := ledger.closed
    unclosed := ledger.lost ++ ledger.stack
    stray := ledger.strays
    openers := ledger.openers
    closers := ledger.closers
    goes := ledger.goes }, ?_⟩
  rw [Checker.check, Checker.finish, ledger.open_]
  exact ledger.said_lost ledger.stack

end SvServer
