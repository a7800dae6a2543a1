import SvServer.Proofs.Hdl.Spelling

/-!
# Line breaks with carriage returns

A text is lexed alike, as far as the kinds of its tokens and errors go, when a carriage return is set
before each of its line breaks. Most scanners stop before both or pass over both. Line comments, strings
without a closing quote, numbers that wait for their digits and backticks before a line break take the
return and leave the line break, but what is left is a blank then. Only a backslash in a string keeps
one character: with a return behind it the line break is not escaped, and ends the string.
-/

namespace SvServer.Hdl

/-- The text with a carriage return before each line break. -/
def withReturns : List Char → List Char
  | [] => []
  | c :: rest => if c = '\n' then '\r' :: '\n' :: withReturns rest else c :: withReturns rest

namespace Returns

variable {text rest : List Char} {p : Char → Bool}

theorem withReturns_lineBreak (rest : List Char) :
    withReturns ('\n' :: rest) = '\r' :: '\n' :: withReturns rest := rfl

theorem withReturns_cons {c : Char} (other : c ≠ '\n') (rest : List Char) :
    withReturns (c :: rest) = c :: withReturns rest := by rw [withReturns, if_neg other]

theorem withReturns_append (before rest : List Char) :
    withReturns (before ++ rest) = withReturns before ++ withReturns rest := by
  induction before with
  | nil => rfl
  | cons c before ih =>
      rw [List.cons_append, withReturns, withReturns, ih]
      split <;> rfl

theorem withReturns_of_unbroken (unbroken : '\n' ∉ text) : withReturns text = text := by
  induction text with
  | nil => rfl
  | cons c text ih =>
      rw [List.mem_cons, not_or] at unbroken
      rw [withReturns_cons (Ne.symm unbroken.1), ih unbroken.2]

theorem mem_of_mem_withReturns {c : Char} (member : c ∈ withReturns text) : c ∈ text ∨ c = '\r' := by
  induction text with
  | nil => exact absurd member List.not_mem_nil
  | cons d text ih =>
      rw [withReturns] at member
      split at member
      case isTrue same =>
        rcases List.mem_cons.1 member with rfl | member
        · exact .inr rfl
        · rcases List.mem_cons.1 member with rfl | member
          · exact .inl (same ▸ .head _)
          · exact (ih member).imp_left (.tail _)
      case isFalse =>
        rcases List.mem_cons.1 member with rfl | member
        · exact .inl (.head _)
        · exact (ih member).imp_left (.tail _)

/-! ## First characters -/

theorem head?_withReturns (text : List Char) :
    (withReturns text).head? = text.head?.map fun c => if c = '\n' then '\r' else c := by
  cases text with
  | nil => rfl
  | cons c rest =>
      rw [withReturns, List.head?_cons, Option.map_some]
      split <;> rfl

/-- Another character than the two comes first in both texts or in none. -/
theorem head?_eq_iff {d : Char} (lineBreak : d ≠ '\n') (carriage : d ≠ '\r') :
    (withReturns text).head? = some d ↔ text.head? = some d := by
  rw [head?_withReturns]
  cases text.head? with
  | none => exact Iff.rfl
  | some c =>
      rw [Option.map_some, Option.some.injEq, Option.some.injEq]
      split
      case isTrue same => rw [same]; exact iff_of_false carriage.symm lineBreak.symm
      case isFalse => exact Iff.rfl

/-- A class that has both characters or none of them has the first of both texts or of none. -/
theorem head?_any (same : p '\r' = p '\n') :
    (withReturns text).head?.any p = text.head?.any p := by
  rw [head?_withReturns, Option.any_map]
  congr 1
  funext c
  show p (if c = '\n' then '\r' else c) = p c
  split
  case isTrue lineBreak => rw [lineBreak, same]
  case isFalse => rfl

theorem scanner_withReturns (c : Char) (rest : List Char) :
    scanner c (withReturns rest).head? = scanner c rest.head? :=
  scanner_congr c (head?_eq_iff (by decide) (by decide)) (head?_eq_iff (by decide) (by decide))
    (head?_any (by decide))

/-! ## What is left behind a lexeme -/

/-- What is left of both texts is the same but for a blank at the beginning. -/
inductive Alike (rest : List Char) : List Char → Prop
  | same : Alike rest (withReturns rest)
  /-- The line break was taken, but with a return only that was. -/
  | before : Alike rest ('\n' :: withReturns rest)
  /-- The return before the line break was taken. -/
  | within {left : List Char} (split : rest = '\n' :: left) : Alike rest ('\n' :: withReturns left)

/-- Two lengths that leave texts that are alike. -/
def Cuts (text : List Char) (length length' : Nat) : Prop :=
  Alike (text.drop length) ((withReturns text).drop length')

theorem cuts_of_drop {length length' : Nat}
    (same : (withReturns text).drop length' = withReturns (text.drop length)) :
    Cuts text length length' := by
  rw [Cuts, same]
  exact .same

/-- Scanners that stop before both characters, or pass over both. -/
theorem dropWhile_withReturns (same : p '\r' = p '\n') (text : List Char) :
    (withReturns text).dropWhile p = withReturns (text.dropWhile p) := by
  induction text with
  | nil => rfl
  | cons c rest ih =>
      by_cases lineBreak : c = '\n'
      · rw [lineBreak, withReturns_lineBreak, List.dropWhile_cons, List.dropWhile_cons,
          List.dropWhile_cons, same, ih]
        split <;> rfl
      · rw [withReturns_cons lineBreak, List.dropWhile_cons, List.dropWhile_cons, ih]
        split
        · rfl
        · rw [withReturns_cons lineBreak]

theorem cuts_run (same : p '\r' = p '\n') :
    Cuts text (runLength p text) (runLength p (withReturns text)) := by
  apply cuts_of_drop
  rw [drop_runLength, drop_runLength, dropWhile_withReturns same]

/-- Scanners that pass over returns and stop before line breaks. -/
theorem dropWhile_line (carriage : p '\r' = true) (lineBreak : p '\n' = false) (text : List Char) :
    (withReturns text).dropWhile p = withReturns (text.dropWhile p) ∨ ∃ left,
      text.dropWhile p = '\n' :: left ∧ (withReturns text).dropWhile p = '\n' :: withReturns left := by
  induction text with
  | nil => exact .inl rfl
  | cons c rest ih =>
      by_cases same : c = '\n'
      · refine .inr ⟨rest, ?_, ?_⟩
        · rw [same, List.dropWhile_cons_of_neg (by rw [lineBreak]; exact Bool.false_ne_true)]
        · rw [same, withReturns_lineBreak, List.dropWhile_cons_of_pos carriage,
            List.dropWhile_cons_of_neg (by rw [lineBreak]; exact Bool.false_ne_true)]
      · rw [withReturns_cons same, List.dropWhile_cons, List.dropWhile_cons]
        split
        · exact ih
        · rw [withReturns_cons same]
          exact .inl rfl

theorem cuts_line (carriage : p '\r' = true) (lineBreak : p '\n' = false) :
    Cuts text (runLength p text) (runLength p (withReturns text)) := by
  rw [Cuts, drop_runLength, drop_runLength]
  rcases dropWhile_line carriage lineBreak text with same | ⟨left, split, same⟩
  · rw [same]
    exact .same
  · rw [same]
    exact .within split

/-- A single character, which is a return where it was a line break. -/
theorem cuts_one (text : List Char) : Cuts text 1 1 := by
  cases text with
  | nil => exact .same
  | cons c rest =>
      by_cases lineBreak : c = '\n'
      · rw [Cuts, lineBreak, withReturns_lineBreak]
        exact .before
      · rw [Cuts, withReturns_cons lineBreak]
        exact .same

/-! ## Comments and strings -/

/-- A block comment is closed by the same mark. -/
theorem blockComment_eq (text : List Char) :
    (blockCommentLength (withReturns text)).2 = (blockCommentLength text).2 ∧
      (withReturns text).drop (blockCommentLength (withReturns text)).1 =
        withReturns (text.drop (blockCommentLength text).1) := by
  induction text with
  | nil => exact ⟨rfl, rfl⟩
  | cons c rest ih =>
      by_cases closes : c = '*' ∧ rest.head? = some '/'
      · obtain ⟨rfl, slash⟩ := closes
        obtain ⟨more, rfl⟩ := List.head?_eq_some_iff.1 slash
        rw [withReturns_cons (by decide), withReturns_cons (by decide),
          blockCommentLength_end ⟨rfl, rfl⟩, blockCommentLength_end ⟨rfl, rfl⟩]
        exact ⟨rfl, rfl⟩
      · rw [blockCommentLength_inner closes]
        by_cases lineBreak : c = '\n'
        · rw [lineBreak, withReturns_lineBreak, blockCommentLength_inner (by simp),
            blockCommentLength_inner (by simp)]
          exact ih
        · rw [withReturns_cons lineBreak, blockCommentLength_inner]
          · exact ih
          · rwa [head?_eq_iff (by decide) (by decide)]

/-- A string without line breaks ends alike. -/
theorem string_eq {text : List Char} (unbroken : '\n' ∉ text.take (stringLength text).1) :
    (stringLength (withReturns text)).2 = (stringLength text).2 ∧
      Cuts text (stringLength text).1 (stringLength (withReturns text)).1 := by
  obtain ⟨inner, tail, inside, taken, ends⟩ := exists_inside text
  have split : withReturns text =
      inner ++ (tail ++ withReturns (text.drop (stringLength text).1)) := by
    rw [← List.append_assoc, ← taken]
    nth_rewrite 1 [← List.take_append_drop (stringLength text).1 text]
    rw [withReturns_append, withReturns_of_unbroken unbroken]
  rw [Cuts, split, stringLength_append inside, ← List.drop_drop, List.drop_left]
  generalize text.drop (stringLength text).1 = behind, (stringLength text).2 = closed at ends
  cases ends with
  | quote =>
      rw [List.cons_append, stringLength_quote]
      exact ⟨rfl, .same⟩
  | escape => exact ⟨rfl, .same⟩
  | stop ends =>
      cases behind with
      | nil => exact ⟨rfl, .same⟩
      | cons c rest =>
          obtain rfl := ends c rfl
          rw [List.nil_append, withReturns_lineBreak,
            stringLength_inner (by decide) (by decide) (by decide), stringLength_lineBreak]
          exact ⟨rfl, .within rfl⟩

/-! ## Numbers -/

theorem unbased_eq (text : List Char) :
    Option.Rel (Cuts text) (basedLength?.unbased text) (basedLength?.unbased (withReturns text)) := by
  cases text with
  | nil => exact .none
  | cons c rest =>
      by_cases lineBreak : c = '\n'
      · rw [lineBreak, withReturns_lineBreak, unbased_cons, unbased_cons]
        exact .none
      · rw [withReturns_cons lineBreak, unbased_cons, unbased_cons, head?_any (by decide)]
        split
        · exact .some (cuts_of_drop (by rw [withReturns_cons lineBreak]; rfl))
        · exact .none

theorem baseLength?_eq (text : List Char) :
    Option.Rel (Cuts text) (baseLength? text) (baseLength? (withReturns text)) := by
  cases text with
  | nil => exact .none
  | cons base rest =>
      by_cases lineBreak : base = '\n'
      · rw [lineBreak, withReturns_lineBreak, baseLength?, baseLength?, if_neg (by decide),
          if_neg (by decide)]
        exact .none
      rw [withReturns_cons lineBreak, baseLength?, baseLength?]
      split
      case isFalse => exact .none
      case isTrue =>
        refine .some ?_
        rw [Cuts, withReturns_cons lineBreak, Nat.add_assoc, Nat.add_comm 1, List.drop_succ_cons,
          Nat.add_assoc, Nat.add_comm 1, List.drop_succ_cons, ← List.drop_drop, ← List.drop_drop,
          drop_runLength, drop_runLength, drop_runLength, drop_runLength]
        -- Before a line break there are no digits.
        rcases dropWhile_line (p := isLineBlank) (by decide) (by decide) rest with
          same | ⟨left, split, same⟩
        · rw [same, dropWhile_withReturns (by decide)]
          exact .same
        · rw [same, split]
          exact .within rfl

theorem signLength_eq (text : List Char) :
    signLength (withReturns text) = signLength text ∧
      (withReturns text).drop (signLength text) = withReturns (text.drop (signLength text)) := by
  refine ⟨by simp only [signLength, head?_eq_iff (d := 's') (by decide) (by decide),
    head?_eq_iff (d := 'S') (by decide) (by decide)], ?_⟩
  rw [signLength]
  split
  case isFalse => rfl
  case isTrue signed =>
    rcases signed with sign | sign
    all_goals
      obtain ⟨rest, rfl⟩ := List.head?_eq_some_iff.1 sign
      rfl

theorem basedLength?_eq (text : List Char) :
    Option.Rel (Cuts text) (basedLength? text) (basedLength? (withReturns text)) := by
  obtain ⟨same, left⟩ := signLength_eq text
  have rel := baseLength?_eq (text.drop (signLength text))
  rw [Hdl.basedLength?_eq, Hdl.basedLength?_eq, same, left]
  generalize baseLength? (text.drop (signLength text)) = found,
    baseLength? (withReturns (text.drop (signLength text))) = found' at rel
  cases rel with
  | none => exact unbased_eq text
  | some cuts =>
      refine .some ?_
      rwa [Cuts, ← left, List.drop_drop, List.drop_drop] at cuts

theorem tickLength_eq (text : List Char) : Cuts text (tickLength text) (tickLength (withReturns text)) := by
  by_cases tick : text.head? = some '\''
  case neg =>
    rw [tickLength_of_not tick, tickLength_of_not (mt (head?_eq_iff (by decide) (by decide)).1 tick)]
    exact .same
  case pos =>
    obtain ⟨rest, rfl⟩ := List.head?_eq_some_iff.1 tick
    have rel := basedLength?_eq rest
    rw [withReturns_cons (by decide), tickLength, tickLength]
    generalize basedLength? rest = found, basedLength? (withReturns rest) = found' at rel
    cases rel with
    | none => exact .same
    | @some length length' cuts =>
        rw [Option.map_some, Option.getD_some, Option.map_some, Option.getD_some, Cuts,
          withReturns_cons (by decide), Nat.add_comm 1, List.drop_succ_cons, Nat.add_comm 1,
          List.drop_succ_cons]
        exact cuts

theorem number_eq (text : List Char) :
    Cuts text (numberLength text) (numberLength (withReturns text)) := by
  have behind := tickLength_eq (text.dropWhile isNumeral)
  rw [numberLength_digits, numberLength_digits, Cuts, ← List.drop_drop, ← List.drop_drop,
    drop_runLength, drop_runLength, dropWhile_withReturns (by decide)]
  exact behind

/-! ## Lexemes -/

/-- Whatever begins with a blank is one. -/
theorem isAsciiBlank_of_classify_ne {c : Char} {rest : List Char}
    (solid : (classify c rest).1 ≠ .blank) : Text.isAsciiBlank c = false := by
  rw [Bool.eq_false_iff]
  intro blank
  unfold classify at solid
  rw [if_pos blank] at solid
  exact solid rfl

/-- A lexeme that is no gap has the same kind, and leaves the same behind it. -/
theorem classify_eq {c : Char} {rest : List Char} (solid : Text.isAsciiBlank c = false)
    (unbroken : ∀ closed, (classify c rest).1 = .string closed →
      '\n' ∉ rest.take (classify c rest).2) :
    (classify c (withReturns rest)).1 = (classify c rest).1 ∧
      Cuts rest (classify c rest).2 (classify c (withReturns rest)).2 := by
  rw [classify_eq_scan] at unbroken
  rw [classify_eq_scan, classify_eq_scan, scanner_withReturns]
  cases reader : scanner c rest.head? with
  | blanks =>
      rw [isAsciiBlank_of_scanner reader] at solid
      cases solid
  | lineComment => exact ⟨rfl, cuts_line (by decide) (by decide)⟩
  | blockComment =>
      obtain ⟨more, rfl⟩ := List.head?_eq_some_iff.1 (next_of_scanner reader)
      obtain ⟨closed, left⟩ := blockComment_eq more
      exact ⟨congrArg LexemeKind.blockComment closed, cuts_of_drop left⟩
  | name | directive | systemName => exact ⟨rfl, cuts_run (by decide)⟩
  | escapedName => exact ⟨rfl, cuts_run (by decide)⟩
  | lone => exact ⟨rfl, cuts_one rest⟩
  | string =>
      rw [reader] at unbroken
      obtain ⟨closed, cuts⟩ := string_eq (unbroken _ rfl)
      exact ⟨congrArg LexemeKind.string closed, cuts⟩
  | number => exact ⟨rfl, number_eq rest⟩
  | tick =>
      have rel := basedLength?_eq rest
      dsimp only [Scanner.scan]
      refine ⟨rfl, ?_⟩
      generalize basedLength? rest = found, basedLength? (withReturns rest) = found' at rel
      cases rel with
      | none => exact .same
      | some cuts => exact cuts
  | opening _ | closing _ | symbol => exact ⟨rfl, .same⟩

/-! ## Kinds -/

/-- The kind of a lexeme that is not blank. -/
def solidKind? (lexeme : Lexeme) : Option LexemeKind :=
  if lexeme.kind = .blank then none else some lexeme.kind

/-- The kinds of the lexemes of a text that are not blank. -/
def kindsOf (text : List Char) : List LexemeKind := (Lexeme.ofChars text).filterMap solidKind?

theorem kindsOf_cons (c : Char) (rest : List Char) (solid : (classify c rest).1 ≠ .blank) :
    kindsOf (c :: rest) = (classify c rest).1 :: kindsOf (rest.drop (classify c rest).2) := by
  rw [kindsOf, Lexeme.ofChars_cons]
  exact List.filterMap_cons_some (if_neg solid)

/-- Blanks in front of a text add no kind. -/
theorem kindsOf_blanks {blanks : List Char} (all : ∀ c ∈ blanks, Text.isAsciiBlank c = true)
    (rest : List Char) : kindsOf (blanks ++ rest) = kindsOf rest :=
  Lexeme.filterMap_blanks solidKind? (fun _ blank => if_pos blank) all rest

/-- What is read of the kinds of lexemes is read of kinds that are not blank, if it is nothing for
blanks. -/
theorem filterMap_kindsOf {β : Type} (read : LexemeKind → Option β) (skips : read .blank = none)
    (text : List Char) :
    (Lexeme.ofChars text).filterMap (fun lexeme => read lexeme.kind) =
      (kindsOf text).filterMap read := by
  rw [kindsOf, List.filterMap_filterMap]
  congr 1
  funext lexeme
  rw [solidKind?]
  split
  case isTrue blank => rw [blank, skips]; rfl
  case isFalse => rfl

/-- The kinds of tokens are read of the kinds of lexemes. -/
theorem map_kind_tokens (text : List Char) : (tokens text).map Token.kind =
    (kindsOf text).filterMap fun kind => Lexeme.tokenKind? ⟨kind, []⟩ := by
  have further (start : Nat) (lexemes : List Lexeme) :
      (Lexeme.readFrom Lexeme.token? start lexemes).map Token.kind =
        lexemes.filterMap Lexeme.tokenKind? := by
    induction lexemes generalizing start with
    | nil => rfl
    | cons lexeme rest ih =>
        rw [Lexeme.readFrom_cons, List.map_append, ih, List.filterMap_cons, Lexeme.token?]
        cases lexeme.tokenKind? <;> rfl
  exact (further 0 _).trans (filterMap_kindsOf (fun kind => Lexeme.tokenKind? ⟨kind, []⟩) rfl text)

/-- The kinds of errors are read of the kinds of lexemes. -/
theorem map_kind_lexicalErrors (text : List Char) : (lexicalErrors text).map LexicalError.kind =
    (kindsOf text).filterMap fun kind => Lexeme.errorKind? ⟨kind, []⟩ := by
  rw [← filterMap_kindsOf _ rfl]
  refine (map_kind_readFrom 0 (Lexeme.ofChars text)).trans (congrArg (List.filterMap · _) ?_)
  funext lexeme
  rw [Lexeme.errorKind?, Lexeme.errorKind?, Lexeme.error?, Lexeme.error?]
  dsimp only
  split <;> rfl

theorem Alike.kindsOf_eq {rest rest' : List Char} (alike : Alike rest rest') :
    kindsOf rest' = kindsOf (withReturns rest) := by
  have skip (c : Char) (blank : Text.isAsciiBlank c = true) (rest : List Char) :
      kindsOf (c :: rest) = kindsOf rest :=
    kindsOf_blanks (List.forall_mem_singleton.2 blank) rest
  cases alike with
  | same => rfl
  | before => exact skip _ (by decide) _
  | within split =>
      rw [split, withReturns_lineBreak]
      exact (skip _ (by decide) _).symm

/-- Blanks with returns are blanks. -/
theorem kindsOf_withReturns_blanks {blanks : List Char}
    (all : ∀ c ∈ blanks, Text.isAsciiBlank c = true) (rest : List Char) :
    kindsOf (withReturns (blanks ++ rest)) = kindsOf (withReturns rest) := by
  rw [withReturns_append]
  refine kindsOf_blanks (fun c member => ?_) _
  rcases mem_of_mem_withReturns member with member | rfl
  · exact all c member
  · decide

/-- **Returns do not matter to the kinds of lexemes**, if no string has a line break in it. -/
theorem kindsOf_withReturns (text : List Char)
    (unbroken : ∀ lexeme ∈ Lexeme.ofChars text, ∀ closed, lexeme.kind = .string closed →
      '\n' ∉ lexeme.chars) : kindsOf (withReturns text) = kindsOf text := by
  induction text using Lexeme.ofChars.induct with
  | case1 => rfl
  | case2 c rest kind length classified ih =>
      obtain ⟨rfl, rfl⟩ := Prod.ext_iff.1 classified
      rw [Lexeme.ofChars_cons] at unbroken
      have left := ih fun lexeme member => unbroken lexeme (.tail _ member)
      by_cases blank : (classify c rest).1 = .blank
      · have all := isAsciiBlank_of_classify_blank blank
        have whole : c :: rest =
            c :: rest.take (classify c rest).2 ++ rest.drop (classify c rest).2 := by
          rw [List.cons_append, List.take_append_drop]
        rw [whole, kindsOf_withReturns_blanks all, kindsOf_blanks all, left]
      · have solid := isAsciiBlank_of_classify_ne blank
        have other : c ≠ '\n' := by
          rintro rfl
          cases solid
        obtain ⟨same, cuts⟩ := classify_eq solid fun closed string broken =>
          unbroken _ (.head _) closed string (.tail _ broken)
        rw [withReturns_cons other, kindsOf_cons _ _ (same ▸ blank), kindsOf_cons _ _ blank, same,
          cuts.kindsOf_eq, left]

end Returns

/-- **Line endings do not matter to the kinds of tokens and of errors**, as long as no string has a line
break in it. -/
theorem kinds_withReturns (text : List Char)
    (unbroken : ∀ token ∈ tokens text, token.kind = .string → '\n' ∉ token.text.toList) :
    (tokens (withReturns text)).map Token.kind = (tokens text).map Token.kind ∧
      (lexicalErrors (withReturns text)).map LexicalError.kind =
        (lexicalErrors text).map LexicalError.kind := by
  have kinds : Returns.kindsOf (withReturns text) = Returns.kindsOf text := by
    refine Returns.kindsOf_withReturns text fun lexeme member closed string broken => ?_
    obtain ⟨before, behind, cut⟩ := List.append_of_mem member
    have known : lexeme.tokenKind? = some .string := by rw [Lexeme.tokenKind?, string]
    refine unbroken _ (mem_tokens_of_lexemes cut known) rfl ?_
    obtain ⟨inner, tail, -, chars, ends⟩ := Lexeme.chars_of_string cut string
    rw [chars] at broken
    rw [String.toList_ofList, Lexeme.contents_of_string string chars ends]
    have within := (List.mem_cons.1 broken).resolve_left (by decide)
    cases closed with
    | true =>
        rw [ends.eq_quote] at within
        exact (List.mem_append.1 within).resolve_right (by decide)
    | false => exact within
  rw [Returns.map_kind_tokens, Returns.map_kind_tokens, Returns.map_kind_lexicalErrors,
    Returns.map_kind_lexicalErrors, kinds]
  exact ⟨rfl, rfl⟩

/-- A macro over two lines, with a comment and a string. -/
def macroLines : List Char := "`define A(x) \\\n  f(\"x\") // twice\n/* a\n b */ 'd\n5".toList

theorem kinds_macroLines_withReturns :
    (∀ token ∈ tokens macroLines, token.kind = .string → '\n' ∉ token.text.toList) ∧
      (tokens (withReturns macroLines)).map Token.kind = (tokens macroLines).map Token.kind ∧
      (lexicalErrors (withReturns macroLines)).map LexicalError.kind =
        (lexicalErrors macroLines).map LexicalError.kind := by
  have unbroken : ∀ token ∈ tokens macroLines, token.kind = .string → '\n' ∉ token.text.toList := by
    decide +kernel
  exact ⟨unbroken, kinds_withReturns macroLines unbroken⟩

/-- **With returns a string ends at an escaped line break.** The backslash keeps the return, and what
stands on the next line is not in the string any more. -/
theorem kinds_of_continued {inner : List Char} (inside : Inside inner) (unbroken : '\n' ∉ inner)
    (rest : List Char) :
    let text := '"' :: (inner ++ '\\' :: '\n' :: rest)
    (tokens (withReturns text)).map Token.kind =
        .string :: (tokens (withReturns rest)).map Token.kind ∧
      (lexicalErrors (withReturns text)).map LexicalError.kind =
        .unterminatedString :: (lexicalErrors (withReturns rest)).map LexicalError.kind := by
  intro text
  have returned : withReturns text = '"' :: (inner ++ '\\' :: '\r' :: '\n' :: withReturns rest) := by
    rw [Returns.withReturns_cons (by decide), Returns.withReturns_append,
      Returns.withReturns_of_unbroken unbroken]
    rfl
  have length : stringLength (inner ++ '\\' :: '\r' :: '\n' :: withReturns rest) =
      (inner.length + 2, false) := by
    rw [stringLength_append inside, stringLength_escape, stringLength_lineBreak]
  have classified : classify '"' (inner ++ '\\' :: '\r' :: '\n' :: withReturns rest) =
      (.string false, inner.length + 2) := by
    rw [classify_eq_scan, show scanner '"' _ = .string from rfl, Scanner.scan, length]
  have solid : (classify '"' (inner ++ '\\' :: '\r' :: '\n' :: withReturns rest)).1 ≠ .blank := by
    rw [classified]
    exact LexemeKind.noConfusion
  have kinds : Returns.kindsOf (withReturns text) =
      .string false :: Returns.kindsOf (withReturns rest) := by
    rw [returned, Returns.kindsOf_cons _ _ solid, classified, ← List.drop_drop, List.drop_left]
    exact congrArg _ (Returns.kindsOf_blanks (List.forall_mem_singleton.2 (by decide)) _)
  rw [Returns.map_kind_tokens, Returns.map_kind_tokens, Returns.map_kind_lexicalErrors,
    Returns.map_kind_lexicalErrors, kinds]
  exact ⟨rfl, rfl⟩

/-- A string that goes on in the next line has its closing quote, but not with a return. -/
theorem kinds_differ_with_return :
    let text := "\"a\\\nb\"".toList
    '\r' ∉ text ∧ (tokens text).map Token.kind = [.string] ∧ lexicalErrors text = [] ∧
      (tokens (withReturns text)).map Token.kind = [.string, .identifier, .string] ∧
      (lexicalErrors (withReturns text)).map LexicalError.kind =
        [.unterminatedString, .unterminatedString] := by
  decide +kernel

end SvServer.Hdl
