import Mathlib.Data.List.Chain
import Mathlib.Data.List.TakeWhile
import SvServer.Proofs.Hdl.Scanner

/-!
# Texts that differ in their blanks

When every stretch of blanks becomes a single space and the last one is left out, the lexer reads the
same identifiers, directives and delimiters, as long as no lexeme depends on which blank it meets.
Three kinds of lexemes end at a line break and at no other blank: line comments, strings that are
not closed, and based numbers that wait for their digits. An escaped identifier reads on over the
blanks that only Unicode knows.
-/

namespace SvServer.Hdl

/-! ## What the lexer reads of a text -/

/-- The kind and the text of an identifier, a directive or a delimiter. -/
def Lexeme.outline? (lexeme : Lexeme) : Option (TokenKind × String) :=
  match lexeme.kind with
  | .identifier => some (.identifier, String.ofList lexeme.contents)
  | .directive => some (.directive, String.ofList lexeme.contents)
  | .opening delimiter => some (.opening delimiter, String.ofList lexeme.contents)
  | .closing delimiter => some (.closing delimiter, String.ofList lexeme.contents)
  | _ => none

/-- The identifiers, directives and delimiters among the tokens of a text. -/
def outline (text : List Char) : List (TokenKind × String) :=
  ((tokens text).filter fun token => token.kind ≠ .string ∧ token.kind ≠ .other).map fun token =>
    (token.kind, token.text)

theorem outline_eq (text : List Char) :
    outline text = (Lexeme.ofChars text).filterMap Lexeme.outline? := by
  rw [outline, tokens]
  generalize 0 = start
  induction Lexeme.ofChars text generalizing start with
  | nil => rfl
  | cons lexeme rest ih =>
      rw [Lexeme.placed, List.filterMap_cons, List.filterMap_cons,
        ← ih (start + Text.byteLength lexeme.chars)]
      obtain ⟨kind, chars⟩ := lexeme
      cases kind <;> rfl

/-! ## Lexemes that a blank does not end -/

/-- Whether characters end in a based number without digits, such as `'h`. -/
def endsInBase (chars : List Char) : Bool :=
  match chars.reverse.dropWhile Text.isAsciiBlank with
  | base :: '\'' :: _ => isBase base
  | base :: sign :: '\'' :: _ => isBase base && (sign = 's' || sign = 'S')
  | _ => false

/-- Whether a lexeme may end only because the next blank is not a space. -/
def Lexeme.isOpen (lexeme : Lexeme) : Bool :=
  match lexeme.kind with
  | .string closed => !closed
  | .other => endsInBase lexeme.chars
  | _ => false

/-- No identifier has a blank inside, and no string and no number is left open before a blank. -/
structure Unbroken (lexemes : List Lexeme) : Prop where
  identifiers : ∀ lexeme ∈ lexemes, lexeme.kind = .identifier →
    ∀ c ∈ lexeme.chars, Text.isBlank c = false
  ends : lexemes.IsChain fun lexeme next =>
    lexeme.isOpen = true → next.chars.head?.any Text.isBlank = false

instance (lexemes : List Lexeme) : Decidable (Unbroken lexemes) :=
  have (lexeme : Lexeme) : Decidable (∀ c ∈ lexeme.chars, Text.isBlank c = false) :=
    List.decidableBAll _ _
  have : DecidableRel fun (lexeme next : Lexeme) =>
      lexeme.isOpen = true → next.chars.head?.any Text.isBlank = false :=
    fun _ _ => inferInstance
  decidable_of_iff
    ((∀ lexeme ∈ lexemes, lexeme.kind = .identifier → ∀ c ∈ lexeme.chars, Text.isBlank c = false) ∧
      lexemes.IsChain fun lexeme next =>
        lexeme.isOpen = true → next.chars.head?.any Text.isBlank = false)
    ⟨fun h => ⟨h.1, h.2⟩, fun h => ⟨h.1, h.2⟩⟩

theorem Unbroken.tail {lexeme : Lexeme} {rest : List Lexeme} (whole : Unbroken (lexeme :: rest)) :
    Unbroken rest :=
  ⟨fun other member => whole.identifiers other (.tail _ member), whole.ends.tail⟩

/-- A lexeme begins where its text does. -/
theorem Lexeme.head?_ofChars (text : List Char) (p : Char → Bool) :
    text.head?.any p = true → ∃ first ∈ (ofChars text).head?, first.chars.head?.any p = true := by
  intro holds
  cases text with
  | nil => exact absurd holds nofun
  | cons c rest =>
      rw [ofChars_cons]
      exact ⟨_, rfl, holds⟩

/-- What holds of the first lexeme of an unbroken text. -/
theorem Unbroken.first {c : Char} {rest : List Char}
    (whole : Unbroken (Lexeme.ofChars (c :: rest))) :
    ((classify c rest).1 = .identifier →
      ∀ d ∈ rest.take (classify c rest).2, Text.isBlank d = false) ∧
    (Lexeme.isOpen ⟨(classify c rest).1, c :: rest.take (classify c rest).2⟩ = true →
      (rest.drop (classify c rest).2).head?.any Text.isBlank = false) ∧
    Unbroken (Lexeme.ofChars (rest.drop (classify c rest).2)) := by
  rw [Lexeme.ofChars_cons] at whole
  refine ⟨fun kind d member => whole.identifiers _ (.head _) kind d (.tail _ member), ?_, whole.tail⟩
  intro isOpen
  rw [Bool.eq_false_iff]
  intro blank
  obtain ⟨next, found, begins⟩ := Lexeme.head?_ofChars _ _ blank
  rw [(List.isChain_cons.1 whole.ends).1 next found isOpen] at begins
  exact absurd begins Bool.false_ne_true

/-! ## Respaced texts -/

/-- A text and the same text with one space for every stretch of blanks, and with none at the end.
`behind` tells that a stretch has begun, so that its other blanks have nothing beside them. -/
inductive Respaced : (behind : Bool) → List Char → List Char → Prop
  | done {behind : Bool} : Respaced behind [] []
  | char {behind : Bool} {c : Char} {text spaced : List Char} (solid : Text.isBlank c = false)
      (others : Respaced false text spaced) : Respaced behind (c :: text) (c :: spaced)
  | blank {c : Char} {text spaced : List Char} (blank : Text.isBlank c = true)
      (others : Respaced true text spaced) : Respaced false (c :: text) (' ' :: spaced)
  | more {c : Char} {text spaced : List Char} (blank : Text.isBlank c = true)
      (others : Respaced true text spaced) : Respaced true (c :: text) spaced
  | trailing {c : Char} {text : List Char} (blank : Text.isBlank c = true)
      (others : Respaced true text []) : Respaced false (c :: text) []

namespace Respaced

variable {behind : Bool} {text spaced rest : List Char} {c d : Char}

/-- The only blanks of a respaced text are spaces. -/
theorem not_mem_lineBreak (h : Respaced behind text spaced) : '\n' ∉ spaced := by
  induction h with
  | done => exact List.not_mem_nil
  | char solid _ ih =>
      refine fun member => (List.mem_cons.1 member).elim (fun same => ?_) ih
      rw [← same] at solid
      exact absurd solid (by decide)
  | blank _ _ ih => exact fun member => (List.mem_cons.1 member).elim (by decide) ih
  | more _ _ ih => exact ih
  | trailing _ _ _ => exact List.not_mem_nil

theorem head?_eq_iff (h : Respaced false text spaced) (solid : Text.isBlank d = false) :
    spaced.head? = some d ↔ text.head? = some d := by
  cases h with
  | done => rfl
  | char _ _ => rfl
  | blank blank _ =>
      have notSpace : ' ' ≠ d := by
        rintro rfl
        exact absurd solid (by decide)
      simp only [List.head?_cons, Option.some.injEq, notSpace, false_iff]
      rintro rfl
      exact Bool.false_ne_true (solid.symm.trans blank)
  | trailing blank _ =>
      simp only [List.head?_nil, List.head?_cons, Option.some.injEq, reduceCtorEq, false_iff]
      rintro rfl
      exact Bool.false_ne_true (solid.symm.trans blank)

theorem head?_any (h : Respaced false text spaced) {p : Char → Bool}
    (solid : ∀ d, p d = true → Text.isBlank d = false) :
    spaced.head?.any p = text.head?.any p := by
  have unlike : ∀ {d : Char}, Text.isBlank d = true → p d = false := fun blank =>
    Bool.eq_false_iff.2 fun holds => Bool.false_ne_true ((solid _ holds).symm.trans blank)
  cases h with
  | done => rfl
  | char _ _ => rfl
  | blank blank _ => exact (unlike (by decide)).trans (unlike blank).symm
  | trailing blank _ => exact (unlike blank).symm

theorem tail_of_solid (h : Respaced behind (c :: text) spaced) (solid : Text.isBlank c = false) :
    ∃ others, spaced = c :: others ∧ Respaced false text others := by
  cases h with
  | char _ others => exact ⟨_, rfl, others⟩
  | blank blank _ | more blank _ | trailing blank _ =>
      exact absurd (solid.symm.trans blank) Bool.false_ne_true

theorem of_solid (h : Respaced behind (c :: text) spaced) (solid : Text.isBlank c = false) :
    Respaced false (c :: text) spaced := by
  obtain ⟨_, rfl, others⟩ := h.tail_of_solid solid
  exact .char solid others

theorem tail_of_blank (h : Respaced true (c :: text) spaced) (blank : Text.isBlank c = true) :
    Respaced true text spaced := by
  cases h with
  | char solid _ => exact absurd (solid.symm.trans blank) Bool.false_ne_true
  | more _ others => exact others

theorem dropWhile_blank (h : Respaced true text spaced) {p : Char → Bool}
    (blanks : ∀ d, p d = true → Text.isBlank d = true) :
    Respaced true (text.dropWhile p) spaced := by
  induction text with
  | nil => exact h
  | cons c text ih =>
      rw [List.dropWhile_cons]
      split
      case isTrue holds => exact ih (h.tail_of_blank (blanks c holds))
      case isFalse => exact h

/-- A run of characters that holds no blank is the same run. -/
theorem takeWhile_eq {p : Char → Bool} (space : p ' ' = false) (h : Respaced false text spaced)
    (solid : ∀ c ∈ text.takeWhile p, Text.isBlank c = false) :
    spaced.takeWhile p = text.takeWhile p ∧
      Respaced false (text.dropWhile p) (spaced.dropWhile p) := by
  induction text generalizing spaced with
  | nil =>
      cases h
      exact ⟨rfl, .done⟩
  | cons c text ih =>
      -- A run that begins with a blank is empty.
      have stops : Text.isBlank c = true → p c = false := fun blank =>
        Bool.eq_false_iff.2 fun holds => Bool.false_ne_true <|
          (solid c (by rw [List.takeWhile_cons_of_pos holds]; exact .head _)).symm.trans blank
      cases h with
      | char notBlank others =>
          rw [List.takeWhile_cons] at solid
          rw [List.takeWhile_cons, List.takeWhile_cons, List.dropWhile_cons, List.dropWhile_cons]
          split
          case isTrue holds =>
            rw [if_pos holds] at solid
            obtain ⟨same, left⟩ := ih others fun d member => solid d (.tail _ member)
            exact ⟨congrArg _ same, left⟩
          case isFalse => exact ⟨rfl, .char notBlank others⟩
      | blank blank others =>
          have fails : ¬p ' ' = true := (Bool.eq_false_iff.1 space)
          have fails' : ¬p c = true := Bool.eq_false_iff.1 (stops blank)
          rw [List.takeWhile_cons_of_neg fails, List.takeWhile_cons_of_neg fails',
            List.dropWhile_cons_of_neg fails, List.dropWhile_cons_of_neg fails']
          exact ⟨rfl, .blank blank others⟩
      | trailing blank others =>
          have fails : ¬p c = true := Bool.eq_false_iff.1 (stops blank)
          rw [List.takeWhile_cons_of_neg fails, List.dropWhile_cons_of_neg fails]
          exact ⟨rfl, .trailing blank others⟩

/-! ## Scanners on respaced texts -/

/-- A block comment ends at the same place. -/
theorem blockCommentLength_eq (h : Respaced behind text spaced) :
    (blockCommentLength spaced).2 = (blockCommentLength text).2 ∧
      ∃ behind, Respaced behind (text.drop (blockCommentLength text).1)
        (spaced.drop (blockCommentLength spaced).1) := by
  -- A blank ends no comment.
  have step : ∀ {c : Char} {text : List Char}, Text.isBlank c = true →
      blockCommentLength (c :: text) =
        ((blockCommentLength text).1 + 1, (blockCommentLength text).2) := by
    intro c text blank
    rw [blockCommentLength, if_neg]
    rintro ⟨rfl, -⟩
    exact absurd blank (by decide)
  induction h with
  | done => exact ⟨rfl, true, .done⟩
  | char solid others ih =>
      rw [blockCommentLength, blockCommentLength]
      simp only [others.head?_eq_iff (d := '/') (by decide)]
      split
      case isTrue ends =>
        obtain ⟨rest, rfl⟩ : ∃ rest, _ = '/' :: rest := List.head?_eq_some_iff.1 ends.2
        obtain ⟨_, rfl, left⟩ := others.tail_of_solid (by decide)
        exact ⟨rfl, _, left⟩
      case isFalse => exact ih
  | blank blank _ ih =>
      rw [step blank, step (by decide)]
      exact ih
  | more blank _ ih =>
      rw [step blank]
      exact ih
  | trailing blank _ ih =>
      rw [step blank]
      exact ih

/-- A string ends at the same place, unless a blank ends it. -/
theorem stringLength_eq (h : Respaced behind text spaced)
    (whole : (stringLength text).2 = false →
      (text.drop (stringLength text).1).head?.any Text.isBlank = false) :
    (stringLength spaced).2 = (stringLength text).2 ∧
      ∃ behind, Respaced behind (text.drop (stringLength text).1)
        (spaced.drop (stringLength spaced).1) := by
  fun_induction stringLength text generalizing behind spaced with
  | case1 =>
      cases h
      exact ⟨rfl, true, .done⟩
  | case2 =>
      obtain ⟨_, rfl, others⟩ := h.tail_of_solid (by decide)
      cases others
      exact ⟨rfl, true, .done⟩
  | case3 c rest _ _ scanned ih =>
      obtain ⟨_, rfl, others⟩ := h.tail_of_solid (by decide)
      rw [scanned] at ih
      cases others with
      | char _ others | blank _ others | trailing _ others =>
          have left := ih others whole
          exact left
  | case4 => exact absurd (show Text.isBlank '\n' = false from whole rfl) (by decide)
  | case5 =>
      obtain ⟨_, rfl, others⟩ := h.tail_of_solid (by decide)
      exact ⟨rfl, _, others⟩
  | case6 c rest lone escape lineBreak quote _ _ scanned ih =>
      have slash : c ≠ '\\' := by
        rintro rfl
        cases rest with
        | nil => exact lone rfl rfl
        | cons => exact escape _ _ rfl rfl
      rw [scanned] at ih
      cases h with
      | char _ others =>
          rw [stringLength_inner slash lineBreak quote]
          exact ih others whole
      | blank _ others =>
          rw [stringLength_inner (by decide) (by decide) (by decide)]
          exact ih others whole
      | more _ others => exact ih others whole
      | trailing _ others => exact ih others whole

end Respaced

/-! ## Based numbers -/

theorem endsInBase_of_blanks (front : List Char) {signs blanks : List Char} {base : Char}
    (signed : signs = [] ∨ signs = ['s'] ∨ signs = ['S']) (isBase : isBase base = true)
    (blank : ∀ c ∈ blanks, Text.isAsciiBlank c = true) :
    endsInBase (front ++ '\'' :: (signs ++ base :: blanks)) = true := by
  have reversed : (front ++ '\'' :: (signs ++ base :: blanks)).reverse.dropWhile Text.isAsciiBlank =
      base :: (signs.reverse ++ '\'' :: front.reverse) := by
    rw [List.reverse_append, List.reverse_cons, List.reverse_append, List.reverse_cons]
    simp only [List.append_assoc, List.singleton_append]
    rw [List.dropWhile_append_of_pos fun c member => blank c (List.mem_reverse.1 member),
      List.cons_append,
      List.dropWhile_cons_of_neg (Bool.eq_false_iff.1 (isAsciiBlank_of_isBase isBase))]
  rw [endsInBase, reversed]
  rcases signed with rfl | rfl | rfl
  · exact isBase
  · simp [isBase]
  · simp [isBase]

theorem isBlank_of_isNumeral {c : Char} (h : isNumeral c = true) : Text.isBlank c = false := by
  simp only [isNumeral, Bool.or_eq_true, decide_eq_true_eq] at h
  rcases h with (digit | rfl) | rfl
  · exact isBlank_of_isAlphanum (by rw [Char.isAlphanum, digit, Bool.or_true])
  · decide
  · decide

theorem isBlank_of_isLineBlank {c : Char} (h : isLineBlank c = true) : Text.isBlank c = true :=
  isBlank_of_isAsciiBlank (Bool.and_eq_true_iff.1 h).1

namespace Respaced

variable {behind : Bool} {text spaced : List Char}

/-- Two lengths that leave the same behind them. -/
def Cuts (text spaced : List Char) (length length' : Nat) : Prop :=
  ∃ behind, Respaced behind (text.drop length) (spaced.drop length')

theorem unbased_eq (h : Respaced false text spaced) :
    Option.Rel (Cuts text spaced) (basedLength?.unbased text) (basedLength?.unbased spaced) := by
  have blankIsNone : ∀ {c : Char} {rest : List Char}, Text.isBlank c = true →
      basedLength?.unbased (c :: rest) = none := by
    intro c rest blank
    rw [basedLength?.unbased, isUnbasedValue_of_isBlank blank]
    rfl
  cases h with
  | done => exact .none
  | char _ others =>
      rw [basedLength?.unbased, basedLength?.unbased,
        others.head?_any fun _ => isBlank_of_isIdentifierChar]
      split
      · exact .some ⟨_, others⟩
      · exact .none
  | blank blank _ =>
      rw [blankIsNone blank, blankIsNone (by decide)]
      exact .none
  | trailing blank _ =>
      rw [blankIsNone blank]
      exact .none

theorem dropWhile_of_solid {c : Char} (solid : Text.isBlank c = false) (rest : List Char) :
    (c :: rest).dropWhile isLineBlank = c :: rest := by
  refine List.dropWhile_cons_of_neg fun blank => ?_
  rw [isBlank_of_isLineBlank blank] at solid
  exact absurd solid.symm Bool.false_ne_true

/-- Behind a stretch of blanks the texts are the same again. -/
theorem begun (h : Respaced true text spaced) (solid : text.head?.any Text.isBlank = false) :
    Respaced false text (spaced.dropWhile isLineBlank) := by
  cases h with
  | done => exact .done
  | char solid others =>
      rw [dropWhile_of_solid solid]
      exact .char solid others
  | more blank _ => exact absurd (solid.symm.trans blank) Bool.false_ne_true

theorem dropWhile_isLineBlank (h : Respaced false text spaced)
    (solid : (text.dropWhile isLineBlank).head?.any Text.isBlank = false) :
    Respaced false (text.dropWhile isLineBlank) (spaced.dropWhile isLineBlank) := by
  -- A stretch of blanks is left behind as a whole, or else what follows begins with one of them.
  have dropped : ∀ {c : Char} {rest spaced : List Char}, Text.isBlank c = true →
      Respaced true rest spaced →
      ((c :: rest).dropWhile isLineBlank).head?.any Text.isBlank = false →
      Respaced false ((c :: rest).dropWhile isLineBlank) (spaced.dropWhile isLineBlank) := by
    intro c rest spaced blank others solid
    rw [List.dropWhile_cons] at solid ⊢
    split at solid
    case isTrue holds =>
      rw [if_pos holds]
      exact (others.dropWhile_blank fun _ => isBlank_of_isLineBlank).begun solid
    case isFalse => exact absurd (solid.symm.trans blank) Bool.false_ne_true
  cases h with
  | done => exact .done
  | char notBlank others =>
      rw [dropWhile_of_solid notBlank, dropWhile_of_solid notBlank]
      exact .char notBlank others
  | blank blank others | trailing blank others =>
      have left := dropped blank others solid
      exact left

theorem baseLength?_eq (h : Respaced false text spaced)
    (whole : ∀ base blanks rest, text = base :: (blanks ++ rest) → isBase base = true →
      (∀ c ∈ blanks, isLineBlank c = true) → baseLength? text = some (blanks.length + 1) →
      rest.head?.any Text.isBlank = false) :
    Option.Rel (Cuts text spaced) (baseLength? text) (baseLength? spaced) := by
  have noBase : ∀ {c : Char}, Text.isBlank c = true → ¬isBase c = true := fun blank base =>
    Bool.false_ne_true ((isBlank_of_isBase base).symm.trans blank)
  cases h with
  | done => exact .none
  | @char _ base rest rest' _ others =>
      rw [baseLength?, baseLength?]
      split
      case isFalse => exact .none
      case isTrue isBase =>
        have solid : (rest.dropWhile isLineBlank).head?.any Text.isBlank = false := by
          cases digits : (rest.dropWhile isLineBlank).takeWhile isBasedDigit with
          | nil =>
              refine whole base (rest.takeWhile isLineBlank) _
                (by rw [List.takeWhile_append_dropWhile]) isBase
                (fun c member => List.all_eq_true.1 List.all_takeWhile c member) ?_
              rw [baseLength?, if_pos isBase, runLength, runLength, digits, Nat.add_comm 1]
              rfl
          | cons d others =>
              cases left : rest.dropWhile isLineBlank with
              | nil => rfl
              | cons e others' =>
                  rw [left, List.takeWhile_cons] at digits
                  split at digits
                  case isTrue digit => exact isBlank_of_isBasedDigit digit
                  case isFalse => exact absurd digits (List.cons_ne_nil _ _).symm
        have digits := (others.dropWhile_isLineBlank solid).takeWhile_eq (p := isBasedDigit) (by decide)
          fun c member => isBlank_of_isBasedDigit (List.all_eq_true.1 List.all_takeWhile c member)
        refine .some ⟨false, ?_⟩
        rw [Nat.add_assoc, Nat.add_comm 1, List.drop_succ_cons, Nat.add_assoc, Nat.add_comm 1,
          List.drop_succ_cons, ← List.drop_drop, ← List.drop_drop, drop_runLength, drop_runLength,
          drop_runLength, drop_runLength]
        exact digits.2
  | blank blank _ =>
      rw [baseLength?, baseLength?, if_neg (noBase blank), if_neg (by decide)]
      exact .none
  | trailing blank _ =>
      rw [baseLength?.eq_2, if_neg (noBase blank)]
      exact .none

/-- The sign of a number takes the same place. -/
theorem signs_eq (h : Respaced false text spaced) :
    signLength spaced = signLength text ∧
      Respaced false (text.drop (signLength text)) (spaced.drop (signLength text)) ∧
      ∃ signs, (signs = [] ∨ signs = ['s'] ∨ signs = ['S']) ∧ signs.length = signLength text ∧
        text.take (signLength text) = signs := by
  have same : signLength spaced = signLength text := by
    simp only [signLength, h.head?_eq_iff (d := 's') (by decide),
      h.head?_eq_iff (d := 'S') (by decide)]
  refine ⟨same, ?_⟩
  rw [signLength]
  split
  case isTrue signed =>
    rcases signed with sign | sign
    all_goals
      obtain ⟨rest, rfl⟩ := List.head?_eq_some_iff.1 sign
      obtain ⟨_, rfl, others⟩ := h.tail_of_solid (by decide)
    · exact ⟨others, ['s'], .inr (.inl rfl), rfl, rfl⟩
    · exact ⟨others, ['S'], .inr (.inr rfl), rfl, rfl⟩
  case isFalse => exact ⟨h, [], .inl rfl, rfl, rfl⟩

/-- A based number ends at the same place, unless it waits for its digits before a blank. -/
theorem basedLength?_eq (h : Respaced false text spaced) (front : List Char)
    (whole : ∀ length, basedLength? text = some length →
      endsInBase (front ++ '\'' :: text.take length) = true →
      (text.drop length).head?.any Text.isBlank = false) :
    Option.Rel (Cuts text spaced) (basedLength? text) (basedLength? spaced) := by
  obtain ⟨same, others, signs, signed, size, taken⟩ := h.signs_eq
  have rel := others.baseLength?_eq ?_
  · rw [Hdl.basedLength?_eq, Hdl.basedLength?_eq, same]
    generalize baseLength? (text.drop (signLength text)) = found,
      baseLength? (spaced.drop (signLength text)) = found' at rel
    cases rel with
    | none => exact h.unbased_eq
    | some cuts =>
        refine .some ?_
        obtain ⟨behind, cut⟩ := cuts
        rw [List.drop_drop, List.drop_drop] at cut
        exact ⟨behind, cut⟩
  · intro base blanks rest split isBase lineBlank known
    have length : basedLength? text = some (signLength text + (blanks.length + 1)) := by
      rw [Hdl.basedLength?_eq, known]
      rfl
    have text_eq : text = signs ++ base :: blanks ++ rest := by
      rw [← List.take_append_drop (signLength text) text, taken, split]
      simp only [List.append_assoc, List.cons_append]
    have long : (signs ++ base :: blanks).length = signLength text + (blanks.length + 1) := by
      rw [List.length_append, List.length_cons, size]
    have left := whole _ length
    rw [← long, text_eq, List.take_left, List.drop_left] at left
    exact left <| endsInBase_of_blanks front signed isBase fun c member =>
      (Bool.and_eq_true_iff.1 (lineBlank c member)).1

/-- A number ends at the same place, unless it waits for its digits before a blank. -/
theorem numberLength_eq (h : Respaced false text spaced) (first : Char)
    (whole : endsInBase (first :: text.take (numberLength text)) = true →
      (text.drop (numberLength text)).head?.any Text.isBlank = false) :
    Cuts text spaced (numberLength text) (numberLength spaced) := by
  obtain ⟨same, others⟩ := h.takeWhile_eq (p := isNumeral) (by decide) fun c member =>
    isBlank_of_isNumeral (List.all_eq_true.1 List.all_takeWhile c member)
  have run : runLength isNumeral spaced = runLength isNumeral text := by
    rw [runLength, same, ← runLength]
  -- Without a number behind a tick, only the digits before it belong to the number.
  have digits : Cuts text spaced (runLength isNumeral text) (runLength isNumeral text) := by
    refine ⟨false, ?_⟩
    nth_rewrite 2 [← run]
    rw [drop_runLength, drop_runLength]
    exact others
  rw [numberLength_digits] at whole ⊢
  rw [numberLength_digits spaced, run]
  by_cases tick : (text.dropWhile isNumeral).head? = some '\''
  case neg =>
    rw [tickLength_of_not tick, tickLength_of_not (mt (others.head?_eq_iff (by decide)).1 tick)]
    exact digits
  case pos =>
    obtain ⟨rest, split⟩ := List.head?_eq_some_iff.1 tick
    rw [split] at others
    obtain ⟨rest', split', left⟩ := others.tail_of_solid (by decide)
    have parts : ∀ length, text.take (runLength isNumeral text + (1 + length)) =
          text.takeWhile isNumeral ++ '\'' :: rest.take length ∧
        text.drop (runLength isNumeral text + (1 + length)) = rest.drop length := by
      intro length
      rw [List.take_add, take_runLength, ← List.drop_drop, drop_runLength, split, Nat.add_comm 1,
        List.take_succ_cons, List.drop_succ_cons]
      exact ⟨rfl, rfl⟩
    have rel := left.basedLength?_eq (first :: text.takeWhile isNumeral) fun length known isOpen => by
      rw [split, tickLength, known, Option.map_some, Option.getD_some, (parts length).1,
        (parts length).2] at whole
      exact whole isOpen
    rw [split, split', tickLength, tickLength]
    generalize basedLength? rest = found, basedLength? rest' = found' at rel
    cases rel with
    | none => exact digits
    | @some length length' cuts =>
        obtain ⟨behind, cut⟩ := cuts
        refine ⟨behind, ?_⟩
        rw [Option.map_some, Option.getD_some, Option.map_some, Option.getD_some, (parts length).2,
          ← run, ← List.drop_drop, drop_runLength, split', Nat.add_comm 1, List.drop_succ_cons]
        exact cut

/-! ## Lexemes of respaced texts -/

theorem scanner_eq (h : Respaced false text spaced) (c : Char) :
    scanner c spaced.head? = scanner c text.head? := by
  refine scanner_congr c (h.head?_eq_iff (by decide)) (h.head?_eq_iff (by decide))
    (h.head?_any fun d start => ?_)
  exact isBlank_of_isIdentifierChar (isIdentifierChar_of_isIdentifierStart start)

theorem cuts_run {p : Char → Bool} (h : Respaced false text spaced) (space : p ' ' = false)
    (solid : ∀ c ∈ text.takeWhile p, Text.isBlank c = false) :
    spaced.take (runLength p spaced) = text.take (runLength p text) ∧
      Cuts text spaced (runLength p text) (runLength p spaced) := by
  obtain ⟨same, left⟩ := h.takeWhile_eq space solid
  rw [take_runLength, take_runLength, same]
  refine ⟨rfl, false, ?_⟩
  rw [drop_runLength, drop_runLength]
  exact left

theorem cuts_one (h : Respaced false text spaced) : Cuts text spaced 1 1 := by
  cases h with
  | done => exact ⟨true, .done⟩
  | char _ others | blank _ others | trailing _ others => exact ⟨_, others⟩

/-- A lexeme of a text that is not a line comment has the same kind in the respaced text and says the
same, and the same comes behind it. -/
theorem classify_eq {c : Char} (h : Respaced false text spaced)
    (solid : Text.isBlank c = false)
    (inside : (classify c text).1 = .identifier →
      ∀ d ∈ text.take (classify c text).2, Text.isBlank d = false)
    (whole : Lexeme.isOpen ⟨(classify c text).1, c :: text.take (classify c text).2⟩ = true →
      (text.drop (classify c text).2).head?.any Text.isBlank = false)
    (code : (classify c text).1 ≠ .lineComment) :
    Lexeme.outline? ⟨(classify c spaced).1, c :: spaced.take (classify c spaced).2⟩ =
        Lexeme.outline? ⟨(classify c text).1, c :: text.take (classify c text).2⟩ ∧
      Cuts text spaced (classify c text).2 (classify c spaced).2 := by
  rw [classify_eq_scan] at inside whole code
  rw [classify_eq_scan, classify_eq_scan, h.scanner_eq]
  have named : ∀ c ∈ text.takeWhile isIdentifierChar, Text.isBlank c = false := fun c member =>
    isBlank_of_isIdentifierChar (List.all_eq_true.1 List.all_takeWhile c member)
  cases reader : scanner c text.head? with
  | blanks =>
      have blank := isBlank_of_isAsciiBlank (isAsciiBlank_of_scanner reader)
      exact absurd (solid.symm.trans blank) Bool.false_ne_true
  | lineComment =>
      rw [reader] at code
      exact absurd rfl code
  | blockComment =>
      obtain ⟨rest, rfl⟩ := List.head?_eq_some_iff.1 (next_of_scanner reader)
      obtain ⟨_, rfl, others⟩ := h.tail_of_solid (by decide)
      exact ⟨rfl, others.blockCommentLength_eq.2⟩
  | name =>
      obtain ⟨same, cuts⟩ := h.cuts_run (p := isIdentifierChar) (by decide) named
      exact ⟨by dsimp only [Scanner.scan]; rw [same], cuts⟩
  | directive =>
      obtain ⟨same, cuts⟩ := h.cuts_run (p := isIdentifierChar) (by decide) named
      exact ⟨by dsimp only [Scanner.scan]; rw [same], cuts⟩
  | lone => exact ⟨rfl, h.cuts_one⟩
  | escapedName =>
      rw [reader] at inside
      obtain ⟨same, cuts⟩ := h.cuts_run (p := fun d => !Text.isAsciiBlank d) (by decide) fun d member =>
        inside rfl d (by rw [Scanner.scan, take_runLength]; exact member)
      exact ⟨by dsimp only [Scanner.scan]; rw [same], cuts⟩
  | systemName =>
      exact ⟨rfl, (h.cuts_run (p := isIdentifierChar) (by decide) named).2⟩
  | string =>
      rw [reader] at whole
      exact ⟨rfl, (h.stringLength_eq fun isOpen => whole (by
        rw [Scanner.scan, Lexeme.isOpen, isOpen]; rfl)).2⟩
  | number =>
      rw [reader] at whole
      exact ⟨rfl, h.numberLength_eq c whole⟩
  | tick =>
      obtain rfl := eq_tick_of_scanner reader
      rw [reader] at whole
      have rel := h.basedLength?_eq [] fun length known isOpen => by
        rw [Scanner.scan, known] at whole
        exact whole isOpen
      dsimp only [Scanner.scan]
      refine ⟨rfl, ?_⟩
      generalize basedLength? text = found, basedLength? spaced = found' at rel
      cases rel with
      | none => exact ⟨false, h⟩
      | some cuts => exact cuts
  | opening _ | closing _ | symbol => exact ⟨rfl, false, h⟩

/-- A line comment goes on to the end of a respaced text. -/
theorem outline_lineComment (h : Respaced false text spaced) {c : Char}
    (comment : (classify c text).1 = .lineComment) : outline (c :: spaced) = [] := by
  have reader : scanner c text.head? = .lineComment := by
    rw [classify_eq_scan] at comment
    cases reader : scanner c text.head? <;> rw [reader] at comment <;>
      first | rfl | exact absurd comment nofun
  have all : ∀ d ∈ spaced, decide (d ≠ '\n') = true := fun d member =>
    decide_eq_true fun same => h.not_mem_lineBreak (same ▸ member)
  rw [outline_eq, Lexeme.ofChars_cons, classify_eq_scan, h.scanner_eq, reader, Scanner.scan,
    drop_runLength, List.dropWhile_eq_nil_iff.2 all, Lexeme.ofChars_nil]
  rfl

/-- A respaced text begins with no blank behind one. -/
theorem head?_spaced (h : Respaced true text spaced) :
    spaced.head?.any Text.isBlank = false := by
  generalize begun : true = behind at h
  induction h with
  | done => rfl
  | char solid _ => exact solid
  | more _ _ ih => exact ih rfl
  | blank _ _ => exact absurd begun nofun
  | trailing _ _ => rfl

end Respaced

/-! ## The outline of a respaced text -/

/-- The lexemes before the first line comment. -/
def uncommented (lexemes : List Lexeme) : List Lexeme :=
  lexemes.takeWhile (·.kind ≠ .lineComment)

theorem uncommented_cons {lexeme : Lexeme} (code : lexeme.kind ≠ .lineComment)
    (rest : List Lexeme) : uncommented (lexeme :: rest) = lexeme :: uncommented rest :=
  List.takeWhile_cons_of_pos (decide_eq_true code)

/-- A space before a text says nothing. -/
theorem outline_space {spaced : List Char} (solid : spaced.head?.any Text.isBlank = false) :
    outline (' ' :: spaced) = outline spaced := by
  have length : runLength Text.isAsciiBlank spaced = 0 := by
    cases spaced with
    | nil => rfl
    | cons c rest =>
        rw [runLength, List.takeWhile_cons_of_neg]
        · rfl
        · exact fun blank => Bool.false_ne_true (solid.symm.trans (isBlank_of_isAsciiBlank blank))
  have reader : scanner ' ' spaced.head? = .blanks := by
    unfold scanner
    exact if_pos (by decide)
  rw [outline_eq, outline_eq, Lexeme.ofChars_cons, classify_eq_scan, reader, Scanner.scan, length]
  rfl

/-- A blank of a text is left out, with the blanks that make one lexeme with it. -/
theorem outline_blank {c : Char} {text spaced : List Char} (blank : Text.isBlank c = true)
    (h : Respaced true text spaced) :
    (uncommented (Lexeme.ofChars (c :: text))).filterMap Lexeme.outline? =
        (uncommented (Lexeme.ofChars (text.drop (classify c text).2))).filterMap Lexeme.outline? ∧
      Respaced true (text.drop (classify c text).2) spaced := by
  rw [Lexeme.ofChars_cons, classify_eq_scan]
  rcases scanner_of_isBlank blank text.head? with reader | reader
  · rw [reader]
    refine ⟨rfl, ?_⟩
    rw [Scanner.scan, drop_runLength]
    exact h.dropWhile_blank fun _ => isBlank_of_isAsciiBlank
  · rw [reader]
    exact ⟨rfl, h⟩

/-- **What is read of a respaced text** is what is read of the text before its first line comment. -/
theorem outline_respaced : (text : List Char) → {behind : Bool} → {spaced : List Char} →
    Respaced behind text spaced → Unbroken (Lexeme.ofChars text) →
    outline spaced = (uncommented (Lexeme.ofChars text)).filterMap Lexeme.outline?
  | [], _, _, h, _ => by
    cases h
    rw [outline_eq, Lexeme.ofChars_nil]
    rfl
  | c :: text, _, spaced, h, whole => by
    obtain ⟨inside, ends, left⟩ := whole.first
    by_cases blank : Text.isBlank c = true
    case pos =>
      have begun : ∃ spaced', Respaced true text spaced' ∧ outline spaced = outline spaced' := by
        cases h with
        | char solid _ => exact absurd (solid.symm.trans blank) Bool.false_ne_true
        | blank _ others => exact ⟨_, others, outline_space others.head?_spaced⟩
        | more _ others | trailing _ others => exact ⟨_, others, rfl⟩
      obtain ⟨spaced', others, same⟩ := begun
      obtain ⟨said, others⟩ := outline_blank blank others
      rw [same, said]
      exact outline_respaced _ others left
    case neg =>
      have solid := (Bool.not_eq_true _).mp blank
      obtain ⟨spaced', rfl, others⟩ := h.tail_of_solid solid
      by_cases comment : (classify c text).1 = .lineComment
      case pos =>
        rw [others.outline_lineComment comment, Lexeme.ofChars_cons, comment]
        rfl
      case neg =>
        obtain ⟨said, behind, cuts⟩ := others.classify_eq solid inside ends comment
        have ih := outline_respaced _ cuts left
        rw [outline_eq] at ih ⊢
        rw [Lexeme.ofChars_cons, Lexeme.ofChars_cons, uncommented_cons comment,
          List.filterMap_cons, List.filterMap_cons, said, ih]
termination_by text => text.length
decreasing_by
  all_goals
    rw [List.length_drop, List.length_cons]
    exact Nat.lt_succ_of_le (Nat.sub_le _ _)

end SvServer.Hdl
