import Mathlib.Logic.Relation
import SvServer.Proofs.Unit.Lines

/-!
# Places that a walk comes to

A walk comes to a token if a directive before it does not take it up. When the text from a place on
is exchanged, the walk through the new text comes to that place as well, as long as no token before
it looks ahead to what has changed (`Tied.comes`).
-/

namespace SvServer.Unit

open Hdl

/-! ## Steps of a walk -/

section Steps

variable (context : Context)

/-- From a place in a walk, which is given by the tokens ahead and by what has been done, to the
next one. -/
inductive Context.Next : List Token × Progress → List Token × Progress → Prop
  | step (token : Token) (rest : List Token) (progress : Progress) : Next (token :: rest, progress)
      (rest.drop (context.step progress token rest).2, (context.step progress token rest).1)

/-- An active token that is no directive is checked. -/
theorem Context.step_of_checked {progress : Progress} {token : Token} (rest : List Token)
    (active : Chain.isActive progress.chains = true) (kind : token.kind ≠ .directive) :
    context.step progress token rest =
      (⟨⟨progress.walk.state.inspect context.file token rest progress.walk.look,
        progress.walk.look.push token⟩, progress.chains⟩, 0) := by
  have role : role? token = none := if_neg kind
  have line : takesLine token = false := by rw [takesLine, decide_eq_false kind]; rfl
  rw [context.step_of_word _ _ role, if_pos active, wordsUsed, line, Context.act, if_neg kind]
  rfl

theorem Context.walk_of_checked {progress : Progress} {token : Token} (rest : List Token)
    (active : Chain.isActive progress.chains = true) (kind : token.kind ≠ .directive) :
    context.walk (token :: rest) progress = context.walk rest
      ⟨⟨progress.walk.state.inspect context.file token rest progress.walk.look,
        progress.walk.look.push token⟩, progress.chains⟩ := by
  rw [context.walk_cons, context.step_of_checked rest active kind]
  rfl

/-- A walk comes from one place to another. -/
def Context.Comes : List Token × Progress → List Token × Progress → Prop :=
  Relation.ReflTransGen context.Next

variable {context} {place place' : List Token × Progress}

theorem walk_of_comes (comes : context.Comes place place') :
    context.walk place.1 place.2 = context.walk place'.1 place'.2 := by
  induction comes with
  | refl => rfl
  | tail _ next ih =>
      cases next
      rw [ih, context.walk_cons]

theorem suffix_of_comes (comes : context.Comes place place') : place'.1 <:+ place.1 := by
  induction comes with
  | refl => exact List.suffix_rfl
  | tail _ next ih =>
      cases next
      exact ((List.drop_suffix _ _).trans (List.suffix_cons _ _)).trans ih

/-- The place that a walk comes to by so many steps. -/
def Context.advance : Nat → List Token × Progress → List Token × Progress
  | 0, place => place
  | _ + 1, ([], progress) => ([], progress)
  | steps + 1, (token :: rest, progress) =>
    advance steps
      (rest.drop (context.step progress token rest).2, (context.step progress token rest).1)

theorem comes_advance (steps : Nat) (place : List Token × Progress) :
    context.Comes place (context.advance steps place) := by
  induction steps generalizing place with
  | zero => exact .refl
  | succ steps ih =>
      obtain ⟨rest, progress⟩ := place
      cases rest with
      | nil => exact .refl
      | cons token rest => exact .head (.step token rest progress) (ih _)

end Steps

/-! ## Exchanged text -/

/-- Two texts, with their tokens, that are the same up to a place. -/
structure Exchange (context context' : Context) (inner : List Char)
    (front tail tail' : List Token) : Prop where
  whole : ∃ c rest, context.file.text = inner ++ c :: rest ∧ c ≠ '\n' ∧ c ≠ '('
  whole' : ∃ rest, context'.file.text = inner ++ rest ∧ rest.head? ≠ some '('
  within : Within inner front
  here : tail.head?.map Token.start = some (Text.byteLength inner)
  beyond : Beyond inner tail'

section Exchange

variable {context context' : Context} {inner : List Char} {front tail tail' : List Token}

theorem Exchange.beyond_tail (exchange : Exchange context context' inner front tail tail') :
    Beyond inner tail := by
  intro token first
  have here := exchange.here
  rw [show tail.head? = some token from first, Option.map_some] at here
  exact Nat.le_of_eq (Option.some.inj here).symm

theorem Exchange.opens_eq (exchange : Exchange context context' inner front tail tail')
    {text text' : List Char} (whole : context.file.text = inner ++ text)
    (whole' : context'.file.text = inner ++ text') :
    (text'.head? == some '(') = (text.head? == some '(') := by
  obtain ⟨c, rest, same, -, bracket⟩ := exchange.whole
  obtain ⟨rest', same', bracket'⟩ := exchange.whole'
  obtain rfl := List.append_cancel_left (whole.symm.trans same)
  obtain rfl := List.append_cancel_left (whole'.symm.trans same')
  rw [beq_false_of_ne bracket', List.head?_cons, beq_false_of_ne]
  exact fun same => bracket (Option.some.inj same)

/-- A line that ends at the place ends before it. -/
theorem Exchange.lineEnd_lt_of_le (exchange : Exchange context context' inner front tail tail')
    {directive : Token} (ends : context.file.lineEnd directive ≤ Text.byteLength inner) :
    context.file.lineEnd directive < Text.byteLength inner := by
  obtain ⟨c, after, whole, lineBreak, -⟩ := exchange.whole
  refine Nat.lt_of_le_of_ne ends fun same => lineBreak ?_
  rw [SourceFile.lineEnd, whole] at same
  exact eq_lineBreak_of_logicalLineEnd same

/-- A line that a directive takes, and that does not take the place, ends before it. -/
theorem Exchange.lineEnd_lt (exchange : Exchange context context' inner front tail tail')
    {directive : Token} {rest between : List Token} (within : Within inner between)
    (left : rest.drop (lineLength context.file directive rest) = between ++ tail) :
    context.file.lineEnd directive < Text.byteLength inner := by
  have dropped : rest.drop (lineLength context.file directive rest) =
      rest.dropWhile fun token => token.start < context.file.lineEnd directive := by
    have parts := @List.drop_left _
      (rest.takeWhile fun token => token.start < context.file.lineEnd directive)
      (rest.dropWhile fun token => token.start < context.file.lineEnd directive)
    rwa [List.takeWhile_append_dropWhile] at parts
  have stops := List.head?_dropWhile_not
    (fun token : Token => decide (token.start < context.file.lineEnd directive)) rest
  rw [← dropped, left] at stops
  cases between with
  | cons next between =>
      have off : context.file.lineEnd directive ≤ next.start :=
        Nat.not_lt.1 (of_decide_eq_false stops)
      exact Nat.lt_of_le_of_lt off (within next (.head _)).1
  | nil =>
      obtain ⟨next, first, start⟩ := Option.map_eq_some_iff.1 exchange.here
      rw [List.nil_append, first] at stops
      have off : context.file.lineEnd directive ≤ next.start :=
        Nat.not_lt.1 (of_decide_eq_false stops)
      exact exchange.lineEnd_lt_of_le (start ▸ off)

/-- A conditional directive whose line ends before the place has no name there in either text. -/
theorem Exchange.operandName_eq (exchange : Exchange context context' inner front tail tail')
    {directive : Token} (ends : context.file.lineEnd directive ≤ Text.byteLength inner) :
    operandName context'.file directive tail' = operandName context.file directive tail := by
  obtain ⟨c, text, whole, -⟩ := exchange.whole
  obtain ⟨text', whole', -⟩ := exchange.whole'
  rw [Unit.operandName_eq, Unit.operandName_eq, ← List.nil_append tail, ← List.nil_append tail',
    lineReading_of_within whole whole' (fun _ member => absurd member List.not_mem_nil)
      exchange.beyond_tail exchange.beyond (exchange.lineEnd_lt_of_le ends)
      (exchange.opens_eq whole whole')]

theorem Exchange.tail_ne_nil (exchange : Exchange context context' inner front tail tail') :
    tail ≠ [] := by
  rintro rfl
  cases exchange.here

variable {δ : Type} {facts : Declaration → δ} {related : Walk → Walk → Prop}
variable (tied : Tied facts related) (beside : Beside facts context context')
variable (exchange : Exchange context context' inner front tail tail')

include tied beside exchange

/-- A step before the place is taken in the new text as well. -/
theorem Tied.next {token : Token} {taken between : List Token} {reached reached' progress : Progress}
    (within : Within inner (taken ++ between))
    (foresight : Chain.isActive reached.chains = true → token.kind = .identifier →
      outlook facts context.file.path token (taken ++ between ++ tail') =
        outlook facts context.file.path token (taken ++ between ++ tail))
    (edge : taken ++ between = [] → takesOperand token = true →
      operandName context'.file token tail' = operandName context.file token tail)
    (same : Abreast related reached reached')
    (step : context.step reached token (taken ++ between ++ tail) = (progress, taken.length)) :
    ∃ progress', context'.Next (token :: (taken ++ between ++ tail'), reached')
      (between ++ tail', progress') ∧ Abreast related progress progress' := by
  obtain ⟨c, text, whole, -⟩ := exchange.whole
  obtain ⟨text', whole', -⟩ := exchange.whole'
  have operand (takes : takesOperand token = true) :
      operandName context'.file token (taken ++ between ++ tail') =
        operandName context.file token (taken ++ between ++ tail) := by
    cases empty : taken ++ between with
    | nil => exact edge empty takes
    | cons next more =>
        rw [empty] at within
        exact operandName_of_within whole whole' (within next (.head _)).1 _ _
  have line (active : Chain.isActive reached.chains = true) (takes : takesLine token = true) :
      lineReading context'.file token (taken ++ between ++ tail') =
        lineReading context.file token (taken ++ between ++ tail) := by
    have used := context.step_of_word reached (taken ++ between ++ tail) (role?_of_takesLine takes)
    rw [if_pos active, wordsUsed, if_pos takes, step] at used
    have left : (taken ++ between ++ tail).drop
        (lineLength context.file token (taken ++ between ++ tail)) = between ++ tail := by
      rw [← (Prod.mk.inj used).2, List.append_assoc, List.drop_left]
    have inside := exchange.lineEnd_lt
      (fun next member => within next (List.mem_append_right _ member)) left
    exact lineReading_of_within whole whole' within exchange.beyond_tail exchange.beyond inside
      (exchange.opens_eq whole whole')
  obtain ⟨stepped, used⟩ := tied.step beside same (Eq.refl (plain token)) foresight operand line
  rw [step] at stepped used
  refine ⟨_, ?_, stepped⟩
  have next : context'.Next _ _ := .step token (taken ++ between ++ tail') reached'
  rwa [used, List.append_assoc, List.drop_left, ← List.append_assoc] at next

/-- **A walk through the new text comes to the place as well.** -/
theorem Tied.comes {start start' : Progress}
    (foresight : ∀ token between progress,
      context.Comes (front ++ tail, start) (token :: (between ++ tail), progress) →
      Chain.isActive progress.chains = true → token.kind = .identifier →
      outlook facts context.file.path token (between ++ tail') =
        outlook facts context.file.path token (between ++ tail))
    (edge : ∀ directive progress,
      context.Comes (front ++ tail, start) (directive :: tail, progress) →
      takesOperand directive = true →
      operandName context'.file directive tail' = operandName context.file directive tail)
    (same : Abreast related start start') (between : List Token) {progress : Progress}
    (comes : context.Comes (front ++ tail, start) (between ++ tail, progress)) :
    ∃ progress', context'.Comes (front ++ tail', start') (between ++ tail', progress') ∧
      Abreast related progress progress' := by
  generalize target : (between ++ tail, progress) = place at comes
  induction comes generalizing between progress with
  | refl =>
      obtain ⟨split, rfl⟩ := Prod.mk.inj target
      rw [List.append_cancel_right split]
      exact ⟨start', .refl, same⟩
  | tail before next ih =>
      obtain ⟨token, rest, reached⟩ := next
      obtain ⟨left, rfl⟩ := Prod.mk.inj target
      generalize step : context.step reached token rest = stepped at left
      obtain ⟨after, used⟩ := stepped
      -- The tokens that the step uses up stand before the place.
      have short : used ≤ rest.length := by
        by_contra long
        rw [List.drop_eq_nil_of_le (Nat.le_of_not_le long), List.append_eq_nil_iff] at left
        exact exchange.tail_ne_nil left.2
      obtain ⟨taken, rfl, rfl⟩ : ∃ taken, rest = taken ++ between ++ tail ∧ taken.length = used := by
        refine ⟨rest.take used, ?_, List.length_take_of_le short⟩
        rw [List.append_assoc, left, List.take_append_drop]
      have suffix : token :: (taken ++ between) <:+ front := by
        obtain ⟨passed, split⟩ := suffix_of_comes before
        rw [← List.cons_append, ← List.append_assoc] at split
        exact ⟨passed, List.append_cancel_right split⟩
      have within : Within inner (taken ++ between) := fun next member =>
        exchange.within next (suffix.mem (.tail _ member))
      obtain ⟨reached', comes', both⟩ := ih (token :: (taken ++ between)) rfl
      obtain ⟨progress', next', after⟩ := tied.next beside exchange within
        (foresight token (taken ++ between) reached before)
        (fun empty takes => edge token reached (by rwa [empty] at before) takes) both step
      exact ⟨progress', comes'.tail next', after⟩

end Exchange

end SvServer.Unit
