import SvServer.Proofs.Hdl.Scanner

/-!
# Texts put together

A lexeme does not depend on what stands further behind it than the next character or two. So a text
can be exchanged at a place where a lexeme begins, as long as what comes there ends the lexemes
before it as well (`Edge`); the lexemes before the place stay as they are (`ofChars_edge`).
-/

namespace SvServer.Hdl

/-! ## Edges -/

/-- Whether a based number, or an unbased value, begins with these two characters. -/
def beginsValue (first second : Option Char) : Bool :=
  match first with
  | none => false
  | some c =>
    if c = 's' ∨ c = 'S' then second.any isBase
    else isBase c || (isUnbasedValue c && !second.any isIdentifierChar)

theorem isSome_baseLength? (text : List Char) :
    (baseLength? text).isSome = text.head?.any isBase := by
  cases text with
  | nil => rfl
  | cons c rest =>
      rw [baseLength?, List.head?_cons, Option.any_some]
      cases isBase c <;> rfl

theorem isSome_unbased (c : Char) (rest : List Char) :
    (basedLength?.unbased (c :: rest)).isSome =
      (isUnbasedValue c && !rest.head?.any isIdentifierChar) := by
  rw [basedLength?.unbased]
  cases isUnbasedValue c && !rest.head?.any isIdentifierChar <;> rfl

/-- Two characters tell whether a based number begins. -/
theorem isSome_basedLength? (text : List Char) :
    (basedLength? text).isSome = beginsValue text.head? text.tail.head? := by
  cases text with
  | nil => rfl
  | cons c rest =>
      rw [basedLength?_eq, Option.isSome_or, Option.isSome_map, isSome_baseLength?, isSome_unbased,
        List.head?_cons, List.tail_cons, beginsValue, signLength, List.head?_cons]
      simp only [Option.some.injEq]
      by_cases sign : c = 's' ∨ c = 'S'
      · have value : isUnbasedValue c = false := by rcases sign with rfl | rfl <;> rfl
        rw [if_pos sign, if_pos sign, value, Bool.false_and, Bool.or_false]
        rfl
      · rw [if_neg sign, if_neg sign]
        rfl

/-- Two texts that end a lexeme in front of them in the same way. -/
structure Edge (text text' : List Char) : Prop where
  filled : text ≠ []
  /-- A run of characters that ends before the first text ends before the second one. -/
  stops : ∀ p : Char → Bool, text.head?.any p = false → text'.head?.any p = false
  next : ∀ c, scanner c text'.head? = scanner c text.head?
  /-- No based number reaches into the second text that does not reach into the first. -/
  value : ∀ before, basedLength? (before ++ text) = none → basedLength? (before ++ text') = none
  tick : ∀ rest, text = '\'' :: rest → basedLength? rest = none →
    ∃ rest', text' = '\'' :: rest' ∧ basedLength? rest' = none

namespace Edge

variable {text text' : List Char}

theorem head?_ne (edge : Edge text text') {c : Char} (other : text.head? ≠ some c) :
    text'.head? ≠ some c := by
  have first {text : List Char} : text.head?.any (· == c) = true ↔ text.head? = some c := by
    simp [Option.any_eq_true]
  rw [ne_eq, ← first, Bool.not_eq_true] at other ⊢
  exact edge.stops _ other

/-- The same characters may stand in front of both texts. -/
theorem append (edge : Edge text text') (between : List Char) :
    Edge (between ++ text) (between ++ text') := by
  cases between with
  | nil => exact edge
  | cons c between =>
      refine ⟨List.cons_ne_nil _ _, fun _ => id, fun _ => rfl, fun before => ?_, ?_⟩
      · have further := edge.value (before ++ c :: between)
        rwa [List.append_assoc, List.append_assoc] at further
      · rintro rest same unread
        obtain ⟨rfl, rfl⟩ := List.cons.inj same
        exact ⟨_, rfl, edge.value between unread⟩

/-- What is known of the first two characters decides about numbers. -/
theorem value_of_heads
    (first : beginsValue text.head? text.tail.head? = false →
      beginsValue text'.head? text'.tail.head? = false)
    (second : ∀ c, beginsValue (some c) text.head? = false →
      beginsValue (some c) text'.head? = false) (before : List Char)
    (unread : basedLength? (before ++ text) = none) : basedLength? (before ++ text') = none := by
  rw [← Option.not_isSome_iff_eq_none, isSome_basedLength?, Bool.not_eq_true] at unread ⊢
  match before with
  | [] => exact first unread
  | [c] => exact second c unread
  | _ :: _ :: _ => exact unread

/-- A blank ends a lexeme, whatever comes behind it. -/
theorem blank {c : Char} (blank : Text.isAsciiBlank c = true) (rest rest' : List Char) :
    Edge (c :: rest) (c :: rest') := by
  refine ⟨List.cons_ne_nil _ _, fun _ => id, fun _ => rfl, ?_, ?_⟩
  · refine value_of_heads (fun _ => ?_) (fun _ => id)
    have base : isBase c = false := Bool.eq_false_iff.2 fun base =>
      Bool.false_ne_true ((isAsciiBlank_of_isBase base).symm.trans blank)
    have sign : ¬(c = 's' ∨ c = 'S') := by
      rintro (rfl | rfl) <;> exact absurd blank (by decide)
    rw [List.head?_cons, beginsValue, if_neg sign, base,
      isUnbasedValue_of_isBlank (isBlank_of_isAsciiBlank blank)]
    rfl
  · rintro rest same
    obtain ⟨rfl, rfl⟩ := List.cons.inj same
    exact absurd blank (by decide)

/-- Two common characters are enough. -/
theorem word {c : Char} (apart : c ≠ '\'') (d : Char) (rest rest' : List Char) :
    Edge (c :: d :: rest) (c :: d :: rest') := by
  refine ⟨List.cons_ne_nil _ _, fun _ => id, fun _ => rfl, value_of_heads id (fun _ => id), ?_⟩
  rintro rest same
  exact absurd (List.cons.inj same).1 apart

/-- Where a blank or a backtick ends a lexeme, the end of the text does so as well. -/
theorem nothing {c : Char} (mark : Text.isAsciiBlank c = true ∨ c = '\x60') (rest : List Char) :
    Edge (c :: rest) [] := by
  have marks : c ∈ [' ', '\t', '\n', '\r', '\x0c', '\x60'] := by
    simpa [Text.isAsciiBlank, or_assoc] using mark
  refine ⟨List.cons_ne_nil _ _, fun _ _ => rfl, fun first => ?_, ?_, ?_⟩
  · have continues : [' ', '\t', '\n', '\r', '\x0c', '\x60'].all
        fun c => c ≠ '/' ∧ c ≠ '*' ∧ isIdentifierStart c = false := by decide
    obtain ⟨slash, star, start⟩ := of_decide_eq_true (List.all_eq_true.1 continues c marks)
    refine scanner_congr first ?_ ?_ ?_ <;> simp [slash, star, start]
  · have continues : [' ', '\t', '\n', '\r', '\x0c', '\x60'].all
        fun c => isBase c = false ∧ isIdentifierChar c = false := by decide
    obtain ⟨base, part⟩ := of_decide_eq_true (List.all_eq_true.1 continues c marks)
    refine value_of_heads (fun _ => rfl) (fun first => ?_)
    simp only [beginsValue, List.head?_cons, List.head?_nil, Option.any_some, Option.any_none, base,
      part]
    exact id
  · rintro rest same
    obtain ⟨rfl, rfl⟩ := List.cons.inj same
    exact absurd marks (by decide)

/-! ## Scanners before an edge

Each lemma is about a lexeme that ends within the characters before the edge.
-/

variable {before : List Char}

theorem runLength_eq (edge : Edge text text') {p : Char → Bool}
    (ends : runLength p (before ++ text) ≤ before.length) :
    runLength p (before ++ text') = runLength p (before ++ text) := by
  induction before with
  | nil =>
      have stopped : text.head?.any p = false := by
        cases text with
        | nil => rfl
        | cons c rest =>
            rw [List.nil_append, runLength, List.takeWhile_cons] at ends
            split at ends
            · exact absurd ends (Nat.not_succ_le_zero _)
            · exact (Bool.not_eq_true _).mp ‹_›
      have none {text : List Char} (stopped : text.head?.any p = false) : runLength p text = 0 := by
        cases text with
        | nil => rfl
        | cons c rest =>
            have fails : ¬p c = true := (Bool.not_eq_true _).mpr stopped
            rw [runLength, List.takeWhile_cons_of_neg fails]
            rfl
      rw [List.nil_append, List.nil_append, none stopped, none (edge.stops p stopped)]
  | cons c before ih =>
      rw [List.cons_append, runLength, List.takeWhile_cons] at ends
      rw [List.cons_append, List.cons_append, runLength, runLength, List.takeWhile_cons,
        List.takeWhile_cons]
      split at ends
      case isTrue holds =>
        rw [if_pos holds, if_pos holds]
        exact congrArg Nat.succ (ih (Nat.le_of_succ_le_succ ends))
      case isFalse fails => rw [if_neg fails, if_neg fails]

/-- What follows a run that ends before the edge. -/
theorem dropWhile_eq {p : Char → Bool} (ends : runLength p (before ++ text) ≤ before.length) :
    (before ++ text).dropWhile p = before.drop (runLength p (before ++ text)) ++ text := by
  rw [← drop_runLength, List.drop_append_of_le_length ends]

theorem blockCommentLength_eq (edge : Edge text text')
    (ends : (blockCommentLength (before ++ text)).1 ≤ before.length) :
    blockCommentLength (before ++ text') = blockCommentLength (before ++ text) := by
  have positive := blockCommentLength_pos edge.filled
  induction before with
  | nil => exact absurd (Nat.lt_of_lt_of_le positive ends) (Nat.not_lt_zero _)
  | cons c before ih =>
      rw [List.cons_append] at ends
      -- The mark that closes a comment does not reach over the edge.
      have inside : before ≠ [] := by
        rintro rfl
        by_cases closes : c = '*' ∧ text.head? = some '/'
        · rw [List.nil_append, blockCommentLength_end closes, List.length_singleton] at ends
          exact absurd ends (by decide)
        · rw [List.nil_append, blockCommentLength_inner closes, List.length_singleton] at ends
          exact absurd ends (Nat.not_le_of_lt (Nat.succ_lt_succ positive))
      have next : (before ++ text').head? = (before ++ text).head? := by
        rw [List.head?_append_of_ne_nil _ inside, List.head?_append_of_ne_nil _ inside]
      rw [List.cons_append, List.cons_append]
      by_cases closes : c = '*' ∧ (before ++ text).head? = some '/'
      · rw [blockCommentLength_end closes, blockCommentLength_end (by rw [next]; exact closes)]
      · rw [blockCommentLength_inner closes] at ends
        rw [blockCommentLength_inner closes, blockCommentLength_inner (by rw [next]; exact closes),
          ih (Nat.le_of_succ_le_succ ends)]

theorem stringLength_eq (edge : Edge text text') {before : List Char}
    (ends : (stringLength (before ++ text)).1 ≤ before.length) :
    stringLength (before ++ text') = stringLength (before ++ text) := by
  cases before with
  | nil =>
      obtain ⟨c, rest, rfl⟩ := List.exists_cons_of_ne_nil edge.filled
      obtain rfl := eq_lineBreak_of_stringLength (Nat.le_zero.1 ends)
      have stopped := edge.stops (· ≠ '\n') rfl
      cases text' with
      | nil => rw [List.nil_append, List.nil_append, stringLength_lineBreak, stringLength]
      | cons c rest' =>
          obtain rfl : c = '\n' := by simpa using stopped
          rw [List.nil_append, List.nil_append, stringLength_lineBreak, stringLength_lineBreak]
  | cons c before =>
      simp only [List.cons_append] at ends ⊢
      by_cases escape : c = '\\'
      · subst escape
        cases before with
        | nil =>
            obtain ⟨c, rest, rfl⟩ := List.exists_cons_of_ne_nil edge.filled
            rw [List.nil_append, stringLength_escape, List.length_singleton] at ends
            exact absurd ends (by simp)
        | cons d before =>
            simp only [List.cons_append, stringLength_escape, List.length_cons] at ends ⊢
            rw [edge.stringLength_eq (Nat.le_of_add_le_add_right ends)]
      · by_cases lineBreak : c = '\n'
        · rw [lineBreak, stringLength_lineBreak, stringLength_lineBreak]
        · by_cases quote : c = '"'
          · rw [quote, stringLength_quote, stringLength_quote]
          · rw [stringLength_inner escape lineBreak quote] at ends
            rw [stringLength_inner escape lineBreak quote,
              stringLength_inner escape lineBreak quote,
              edge.stringLength_eq (Nat.le_of_succ_le_succ ends)]

theorem baseLength?_eq (edge : Edge text text')
    (ends : ∀ length, baseLength? (before ++ text) = some length → length ≤ before.length) :
    baseLength? (before ++ text') = baseLength? (before ++ text) := by
  cases before with
  | nil =>
      -- No number begins behind the edge.
      have unread : text.head?.any isBase = false := by
        rw [← isSome_baseLength?, ← Bool.not_eq_true, Option.isSome_iff_exists]
        rintro ⟨length, known⟩
        exact absurd (ends length known) (Nat.not_le_of_lt (baseLength?_pos known))
      have none {text : List Char} (unread : text.head?.any isBase = false) :
          baseLength? text = none := by
        rw [← Option.not_isSome_iff_eq_none, isSome_baseLength?, unread]
        exact Bool.false_ne_true
      rw [List.nil_append, List.nil_append, none unread, none (edge.stops _ unread)]
  | cons c before =>
      rw [List.cons_append, baseLength?] at ends
      rw [List.cons_append, List.cons_append, baseLength?, baseLength?]
      split at ends
      case isFalse other => rw [if_neg other, if_neg other]
      case isTrue base =>
        have ends := ends _ rfl
        rw [List.length_cons] at ends
        have blanks : runLength isLineBlank (before ++ text) ≤ before.length := by omega
        rw [if_pos base, if_pos base]
        rw [dropWhile_eq blanks] at ends ⊢
        have same := edge.runLength_eq blanks
        have blanks' : runLength isLineBlank (before ++ text') ≤ before.length := same ▸ blanks
        rw [dropWhile_eq blanks', same, edge.runLength_eq (by rw [List.length_drop]; omega)]

theorem basedLength?_eq (edge : Edge text text')
    (ends : ∀ length, basedLength? (before ++ text) = some length → length ≤ before.length) :
    basedLength? (before ++ text') = basedLength? (before ++ text) := by
  cases known : basedLength? (before ++ text) with
  | none => exact edge.value before known
  | some length =>
      have ends := ends length known
      cases before with
      | nil => exact absurd ends (Nat.not_le_of_lt (basedLength?_pos known))
      | cons c before =>
          have short : signLength (c :: before) ≤ (c :: before).length := by
            rw [signLength]
            split <;> simp
          have size : ((c :: before).drop (signLength (c :: before))).length =
              (c :: before).length - signLength (c :: before) := List.length_drop
          rw [Hdl.basedLength?_eq, show signLength (c :: before ++ text) = signLength (c :: before) from
            rfl, List.drop_append_of_le_length short] at known
          rw [Hdl.basedLength?_eq, show signLength (c :: before ++ text') = signLength (c :: before) from
            rfl, List.drop_append_of_le_length short, ← known]
          generalize (c :: before).drop (signLength (c :: before)) = left at *
          have same : baseLength? (left ++ text') = baseLength? (left ++ text) := by
            refine edge.baseLength?_eq fun count base => ?_
            rw [base, Option.map_some, Option.some_or] at known
            have := Option.some.inj known
            omega
          rw [same]
          cases base : baseLength? (left ++ text) with
          | some count => rfl
          | none =>
              rw [base, Option.map_none, Option.none_or, List.cons_append, unbased_cons] at known
              rw [Option.map_none, Option.none_or, Option.none_or, List.cons_append, List.cons_append,
                unbased_cons, unbased_cons]
              split at known
              case isFalse => cases known
              case isTrue value =>
                have alone := (Bool.and_eq_true_iff.1 value).2
                have alone' : (!(before ++ text').head?.any isIdentifierChar) = true := by
                  cases before with
                  | nil => rw [Bool.not_eq_true'] at alone ⊢; exact edge.stops _ alone
                  | cons => exact alone
                rw [alone, alone']

theorem numberLength_eq (edge : Edge text text')
    (ends : numberLength (before ++ text) ≤ before.length) :
    numberLength (before ++ text') = numberLength (before ++ text) := by
  rw [numberLength_digits] at ends ⊢
  have digits := Nat.le_trans (Nat.le_add_right _ _) ends
  have same := edge.runLength_eq digits
  have digits' : runLength isNumeral (before ++ text') ≤ before.length := same ▸ digits
  rw [numberLength_digits (before ++ text), dropWhile_eq digits', same]
  rw [dropWhile_eq digits] at ends ⊢
  have size : before.length =
      runLength isNumeral (before ++ text) + (before.drop (runLength isNumeral (before ++ text))).length := by
    rw [List.length_drop]
    omega
  rw [size] at ends
  have ends := Nat.le_of_add_le_add_left ends
  generalize before.drop (runLength isNumeral (before ++ text)) = before at ends
  congr 1
  cases before with
  | nil =>
      by_cases tick : text.head? = some '\''
      · obtain ⟨rest, rfl⟩ := List.head?_eq_some_iff.1 tick
        rw [List.nil_append, tickLength] at ends
        cases known : basedLength? rest with
        | some length =>
            rw [known, Option.map_some, Option.getD_some, Nat.add_comm] at ends
            exact absurd ends (Nat.not_succ_le_zero _)
        | none =>
            obtain ⟨rest', rfl, known'⟩ := edge.tick rest rfl known
            rw [List.nil_append, List.nil_append, tickLength, tickLength, known, known']
      · rw [List.nil_append, List.nil_append, tickLength_of_not tick,
          tickLength_of_not (edge.head?_ne tick)]
  | cons c before =>
      by_cases tick : c = '\''
      · subst tick
        rw [List.cons_append, tickLength] at ends
        rw [List.cons_append, List.cons_append, tickLength, tickLength, edge.basedLength?_eq]
        intro length known
        rw [known, Option.map_some, Option.getD_some, List.length_cons, Nat.add_comm] at ends
        exact Nat.le_of_succ_le_succ ends
      · rw [tickLength_of_not, tickLength_of_not] <;>
          exact fun same => tick (Option.some.inj same)

/-- **A lexeme that ends before the edge** ends there in front of the other text, too. -/
theorem classify_eq (edge : Edge text text') {c : Char}
    (ends : (classify c (before ++ text)).2 ≤ before.length) :
    classify c (before ++ text') = classify c (before ++ text) := by
  have next : scanner c (before ++ text').head? = scanner c (before ++ text).head? := by
    cases before with
    | nil => exact edge.next c
    | cons => rfl
  rw [classify_eq_scan] at ends ⊢
  rw [classify_eq_scan, next]
  have run {p : Char → Bool} (ends : runLength p (before ++ text) ≤ before.length)
      (kind : LexemeKind) : (kind, runLength p (before ++ text')) =
        (kind, runLength p (before ++ text)) := by rw [edge.runLength_eq ends]
  cases known : scanner c (before ++ text).head? with
  | blanks | lineComment | name | directive | escapedName | systemName =>
      rw [known] at ends
      exact run ends _
  | blockComment =>
      rw [known] at ends
      cases before with
      | nil => exact absurd ends (Nat.not_succ_le_zero _)
      | cons d before =>
          have same := edge.blockCommentLength_eq (Nat.le_of_succ_le_succ ends)
          simp only [Scanner.scan, List.cons_append, List.tail_cons, same]
  | string =>
      rw [known] at ends
      have same := edge.stringLength_eq ends
      simp only [Scanner.scan, same]
  | number =>
      rw [known] at ends
      have same := edge.numberLength_eq ends
      simp only [Scanner.scan, same]
  | tick =>
      rw [known] at ends
      have same : basedLength? (before ++ text') = basedLength? (before ++ text) :=
        edge.basedLength?_eq fun length known => by rwa [Scanner.scan, known] at ends
      simp only [Scanner.scan, same]
  | lone | opening | closing | symbol => rfl

end Edge

/-! ## Lexemes before an edge -/

namespace Lexeme

@[simp] theorem flatten_nil : flatten [] = [] := rfl

@[simp] theorem flatten_cons (lexeme : Lexeme) (rest : List Lexeme) :
    flatten (lexeme :: rest) = lexeme.chars ++ flatten rest := rfl

theorem flatten_append (before behind : List Lexeme) :
    flatten (before ++ behind) = flatten before ++ flatten behind := List.flatMap_append

/-- The lexemes behind a place are those of the text that begins there. -/
theorem ofChars_flatten {text : List Char} {before behind : List Lexeme}
    (cut : ofChars text = before ++ behind) : ofChars (flatten behind) = behind := by
  induction before generalizing text with
  | nil => rw [← List.nil_append behind, ← cut, flatten_ofChars]
  | cons lexeme before ih =>
      cases text with
      | nil => rw [ofChars_nil] at cut; cases cut
      | cons c rest =>
          rw [ofChars_cons, List.cons_append] at cut
          exact ih (List.cons.inj cut).2

/-- **The lexemes before an edge** stay as they are. -/
theorem ofChars_edge {text text' : List Char} (edge : Edge text text') {before : List Lexeme}
    (cut : ofChars (flatten before ++ text) = before ++ ofChars text) :
    ofChars (flatten before ++ text') = before ++ ofChars text' := by
  induction before with
  | nil => rfl
  | cons lexeme before ih =>
      have filled : lexeme.chars ≠ [] := chars_ne_nil (by rw [cut]; exact .head _)
      obtain ⟨kind, chars⟩ := lexeme
      obtain ⟨c, rest, rfl⟩ := List.exists_cons_of_ne_nil filled
      rw [flatten_cons, List.append_assoc, List.cons_append] at cut ⊢
      rw [ofChars_cons, List.cons_append] at cut
      obtain ⟨first, others⟩ := List.cons.inj cut
      obtain ⟨classified, taken⟩ := Lexeme.mk.inj first
      -- What is left of the text is what the other lexemes spell.
      have left : (rest ++ (flatten before ++ text)).drop
          (classify c (rest ++ (flatten before ++ text))).2 = flatten before ++ text := by
        have spelled := congrArg flatten others
        rwa [flatten_append, flatten_ofChars, flatten_ofChars] at spelled
      have behind := edge.append (flatten before)
      have size : (classify c (rest ++ (flatten before ++ text))).2 = rest.length := by
        have positive := List.length_pos_iff.2 behind.filled
        have lengths := congrArg List.length left
        have whole : (rest ++ (flatten before ++ text)).length =
            rest.length + (flatten before ++ text).length := List.length_append
        rw [List.length_drop, whole] at lengths
        omega
      rw [left] at others
      rw [ofChars_cons, behind.classify_eq (Nat.le_of_eq size), size, List.take_left, List.drop_left,
        ih others, List.cons_append, classified]

/-! ## Reading lexemes -/

section Reading

variable {β : Type} (read : Lexeme → Nat → Option β)

/-- What is read of lexemes of which the first begins at a byte offset. -/
def readFrom (start : Nat) (lexemes : List Lexeme) : List β :=
  (placed start lexemes).filterMap fun (lexeme, start) => read lexeme start

theorem readFrom_cons (start : Nat) (lexeme : Lexeme) (rest : List Lexeme) :
    readFrom read start (lexeme :: rest) =
      (read lexeme start).toList ++ readFrom read (start + Text.byteLength lexeme.chars) rest := by
  rw [readFrom, placed, List.filterMap_cons]
  dsimp only
  cases read lexeme start <;> rfl

theorem readFrom_append (start : Nat) (before behind : List Lexeme) :
    readFrom read start (before ++ behind) = readFrom read start before ++
      readFrom read (start + Text.byteLength (flatten before)) behind := by
  induction before generalizing start with
  | nil => rfl
  | cons lexeme before ih =>
      rw [List.cons_append, readFrom_cons, readFrom_cons, ih, List.append_assoc, flatten_cons,
        Text.byteLength_append, Nat.add_assoc]

variable (skips : ∀ lexeme start, lexeme.kind = .blank → read lexeme start = none)

include skips

/-- A blank in front of a text only moves it on. -/
theorem readFrom_blank {c : Char} (blank : Text.isAsciiBlank c = true) (start : Nat)
    (rest : List Char) : readFrom read start (ofChars (c :: rest)) =
      readFrom read (start + c.utf8Size) (ofChars rest) := by
  have blanks {c : Char} (blank : Text.isAsciiBlank c = true) (start : Nat) (rest : List Char) :
      readFrom read start (ofChars (c :: rest)) = readFrom read
        (start + c.utf8Size + Text.byteLength (rest.takeWhile Text.isAsciiBlank))
        (ofChars (rest.dropWhile Text.isAsciiBlank)) := by
    have classified : classify c rest = (.blank, runLength Text.isAsciiBlank rest) := by
      unfold classify
      exact if_pos blank
    rw [ofChars_cons, classified, readFrom_cons, skips _ _ rfl, take_runLength, drop_runLength,
      Text.byteLength_cons, Nat.add_assoc]
    rfl
  rw [blanks blank]
  cases rest with
  | nil => rfl
  | cons d rest =>
      by_cases more : Text.isAsciiBlank d = true
      · rw [blanks more, List.takeWhile_cons_of_pos more, List.dropWhile_cons_of_pos more,
          Text.byteLength_cons, Nat.add_assoc, Nat.add_assoc, Nat.add_assoc]
      · rw [List.takeWhile_cons_of_neg more, List.dropWhile_cons_of_neg more]
        rfl

theorem readFrom_blanks {blanks : List Char} (all : ∀ c ∈ blanks, Text.isAsciiBlank c = true)
    (start : Nat) (rest : List Char) : readFrom read start (ofChars (blanks ++ rest)) =
      readFrom read (start + Text.byteLength blanks) (ofChars rest) := by
  induction blanks generalizing start with
  | nil => rfl
  | cons c blanks ih =>
      rw [List.cons_append, readFrom_blank read skips (all c (.head _)),
        ih (fun d member => all d (.tail _ member)), Text.byteLength_cons, Nat.add_assoc]

end Reading

end Lexeme

/-! ## Tokens and errors of a part of a text -/

/-- A token that stands further on. -/
def Token.shift (count : Nat) (token : Token) : Token :=
  { token with start := count + token.start, stop := count + token.stop }

theorem tokens_eq (text : List Char) :
    tokens text = Lexeme.readFrom Lexeme.token? 0 (Lexeme.ofChars text) := rfl

theorem readFrom_token? (count start : Nat) (lexemes : List Lexeme) :
    Lexeme.readFrom Lexeme.token? (count + start) lexemes =
      (Lexeme.readFrom Lexeme.token? start lexemes).map (Token.shift count) := by
  induction lexemes generalizing start with
  | nil => rfl
  | cons lexeme rest ih =>
      have first : lexeme.token? (count + start) = (lexeme.token? start).map (Token.shift count) := by
        rw [Lexeme.token?, Lexeme.token?, Option.map_map]
        congr 1
        funext kind
        rw [Function.comp_apply, Token.shift, Nat.add_assoc]
      rw [Lexeme.readFrom_cons, Lexeme.readFrom_cons, Nat.add_assoc, ih, first, List.map_append]
      cases lexeme.token? start <;> rfl

/-- What is wrong with a lexeme. -/
def Lexeme.errorKind? (lexeme : Lexeme) : Option LexicalErrorKind :=
  (lexeme.error? 0).map LexicalError.kind

/-- The kinds of errors do not depend on places. -/
theorem map_kind_readFrom (start : Nat) (lexemes : List Lexeme) :
    (Lexeme.readFrom Lexeme.error? start lexemes).map LexicalError.kind =
      lexemes.filterMap Lexeme.errorKind? := by
  induction lexemes generalizing start with
  | nil => rfl
  | cons lexeme rest ih =>
      have first : (lexeme.error? start).map LexicalError.kind = lexeme.errorKind? := by
        rw [Lexeme.errorKind?, Lexeme.error?, Lexeme.error?]
        split <;> rfl
      rw [Lexeme.readFrom_cons, List.map_append, ih, List.filterMap_cons, ← first]
      cases lexeme.error? start <;> rfl

theorem Lexeme.token?_of_blank (lexeme : Lexeme) (start : Nat) (blank : lexeme.kind = .blank) :
    lexeme.token? start = none := by
  rw [token?, tokenKind?, blank]
  rfl

theorem Lexeme.error?_of_blank (lexeme : Lexeme) (start : Nat) (blank : lexeme.kind = .blank) :
    lexeme.error? start = none := by
  rw [error?, blank]

/-! ## Directives -/

theorem chars_of_classify_directive {c : Char} {rest : List Char} :
    (classify c rest).1 = .directive → c = '\x60' ∧ ∃ d more,
      rest.take (classify c rest).2 = d :: more ∧ ∀ e ∈ d :: more, isIdentifierChar e = true := by
  fun_cases classify c rest with
  | case5 start =>
      refine fun _ => ⟨rfl, ?_⟩
      cases rest with
      | nil => cases start
      | cons d more =>
          have first : isIdentifierChar d = true := isIdentifierChar_of_isIdentifierStart start
          refine ⟨d, more.takeWhile isIdentifierChar, ?_, fun e member => ?_⟩
          · rw [take_runLength, List.takeWhile_cons_of_pos first]
          · rcases List.mem_cons.1 member with rfl | member
            · exact first
            · exact List.all_eq_true.1 List.all_takeWhile e member
  | _ => exact fun kind => by cases kind

theorem Lexeme.kind_of_tokenKind? {lexeme : Lexeme} (known : lexeme.tokenKind? = some .directive) :
    lexeme.kind = .directive := by
  rw [tokenKind?] at known
  cases same : lexeme.kind <;> rw [same] at known <;> first | rfl | cases known

/-- A directive is a backtick with a name behind it. -/
theorem Lexeme.chars_of_directive {text : List Char} {lexeme : Lexeme}
    (member : lexeme ∈ ofChars text) (kind : lexeme.kind = .directive) :
    ∃ d more, lexeme.chars = '\x60' :: d :: more ∧ ∀ e ∈ d :: more, isIdentifierChar e = true := by
  obtain ⟨c, rest, rfl⟩ := exists_classified member
  obtain ⟨rfl, d, more, taken, name⟩ := chars_of_classify_directive kind
  exact ⟨d, more, congrArg (List.cons _) taken, name⟩

/-! ## Texts that a blank ends -/

/-- A blank behind the text belongs to none of its comments, strings, numbers and names. -/
def EndsWhole (text : List Char) : Prop :=
  ∃ last ∈ (Lexeme.ofChars (text ++ [' '])).getLast?, last.kind = .blank

instance (text : List Char) : Decidable (EndsWhole text) :=
  inferInstanceAs (Decidable (∃ last ∈ (Lexeme.ofChars (text ++ [' '])).getLast?, last.kind = .blank))

/-- A gap without a comment is made of blanks. -/
theorem isAsciiBlank_of_classify_blank {c : Char} {rest : List Char} :
    (classify c rest).1 = .blank →
      ∀ d ∈ c :: rest.take (classify c rest).2, Text.isAsciiBlank d = true := by
  fun_cases classify c rest with
  | case1 =>
      intro _ d member
      rcases List.mem_cons.1 member with rfl | member
      · assumption
      · exact mem_take_runLength member
  | _ => exact fun kind => by cases kind

theorem isAsciiBlank_of_blank {text : List Char} {lexeme : Lexeme}
    (member : lexeme ∈ Lexeme.ofChars text) (kind : lexeme.kind = .blank) :
    ∀ c ∈ lexeme.chars, Text.isAsciiBlank c = true := by
  obtain ⟨c, rest, rfl⟩ := Lexeme.exists_classified member
  exact isAsciiBlank_of_classify_blank kind

/-- **A text that a blank ends** is read in front of the blank as it is alone. -/
theorem EndsWhole.readFrom {text : List Char} (whole : EndsWhole text) {β : Type}
    (read : Lexeme → Nat → Option β)
    (skips : ∀ lexeme start, lexeme.kind = .blank → read lexeme start = none) (start : Nat)
    (rest : List Char) : Lexeme.readFrom read start (Lexeme.ofChars (text ++ ' ' :: rest)) =
      Lexeme.readFrom read start (Lexeme.ofChars text) ++
        Lexeme.readFrom read (start + Text.byteLength text + 1) (Lexeme.ofChars rest) := by
  obtain ⟨⟨kind, blanks⟩, found, rfl⟩ := whole
  obtain ⟨before, cut⟩ := List.getLast?_eq_some_iff.1 found
  have member : ⟨.blank, blanks⟩ ∈ Lexeme.ofChars (text ++ [' ']) := by
    rw [cut]
    exact List.mem_append_right _ (.head _)
  have all := isAsciiBlank_of_blank member rfl
  have alone := Lexeme.ofChars_flatten cut
  -- The text ends in all of the blanks but the last.
  obtain ⟨inner, last, rfl⟩ := (List.eq_nil_or_concat blanks).resolve_left (Lexeme.chars_ne_nil member)
  have spelled := Lexeme.flatten_ofChars (text ++ [' '])
  rw [cut, Lexeme.flatten_append, Lexeme.flatten_cons, Lexeme.flatten_nil, List.append_nil,
    List.concat_eq_append, ← List.append_assoc] at spelled
  obtain ⟨rfl, same⟩ := List.append_inj' spelled.symm rfl
  obtain rfl := (List.cons.inj same).1
  rw [List.concat_eq_append] at cut alone all
  rw [Lexeme.flatten_cons, Lexeme.flatten_nil, List.append_nil] at alone
  rw [List.append_assoc, ← alone] at cut
  have inner_blank : ∀ c ∈ inner, Text.isAsciiBlank c = true := fun c member =>
    all c (List.mem_append_left _ member)
  have goesOn : Edge (inner ++ [' ']) (inner ++ ' ' :: rest) := by
    cases inner with
    | nil => exact .blank (by decide) _ _
    | cons c inner => exact .blank (inner_blank c (.head _)) _ _
  have stops : Edge (inner ++ [' ']) inner := by
    cases inner with
    | nil => exact .nothing (.inl (by decide)) _
    | cons c inner => exact .blank (inner_blank c (.head _)) _ _
  have nothing (start : Nat) : Lexeme.readFrom read start (Lexeme.ofChars inner) = [] := by
    rw [← List.append_nil inner, Lexeme.readFrom_blanks read skips inner_blank, Lexeme.ofChars_nil]
    rfl
  rw [List.append_assoc, Lexeme.ofChars_edge goesOn cut, Lexeme.ofChars_edge stops cut,
    Lexeme.readFrom_append, Lexeme.readFrom_append, nothing, List.append_nil,
    Lexeme.readFrom_blanks read skips inner_blank, Lexeme.readFrom_blank read skips (by decide),
    Text.byteLength_append, Nat.add_assoc start]
  rfl

end SvServer.Hdl
