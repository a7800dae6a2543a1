import SvServer.Proofs.Unit.Lines

/-!
# Spans in the text of a file

Whatever the lexer cuts out of a text is a stretch between two boundaries: a token, what is wrong in the
text, and what a directive takes of its logical line. So the line and column numbers made from them
are those of characters, and text can be cut out there.
-/

namespace SvServer

open Hdl

namespace Hdl

variable {text : List Char}

/-! ## Lexemes and tokens -/

/-- A lexeme begins where those before it end, and takes its characters. -/
theorem isStretch_of_lexemes {before behind : List Lexeme} {lexeme : Lexeme}
    (cut : Lexeme.ofChars text = before ++ lexeme :: behind) :
    Text.IsStretch text (Text.byteLength (Lexeme.flatten before))
      (Text.byteLength (Lexeme.flatten before) + Text.byteLength lexeme.chars) := by
  rw [← Lexeme.flatten_ofChars text, cut, Lexeme.flatten_append, Lexeme.flatten_cons]
  exact Text.isStretch_append _ _ _

/-- What is placed in a text is cut out of it. -/
theorem exists_lexemes_of_placed {lexeme : Lexeme} {start : Nat}
    (placed : (lexeme, start) ∈ Lexeme.placed 0 (Lexeme.ofChars text)) : ∃ before behind,
      Lexeme.ofChars text = before ++ lexeme :: behind ∧
        start = Text.byteLength (Lexeme.flatten before) := by
  obtain ⟨before, behind, cut, place⟩ := Lexeme.mem_placed placed
  exact ⟨before, behind, cut, place.trans (Nat.zero_add _)⟩

/-- A token has a lexeme of the text, and ends where that does. -/
theorem exists_lexemes_of_mem {token : Token} (member : token ∈ tokens text) :
    ∃ before lexeme behind, Lexeme.ofChars text = before ++ lexeme :: behind ∧
      lexeme.token? token.start = some token ∧
      token.start = Text.byteLength (Lexeme.flatten before) ∧
      token.stop = Text.byteLength (Lexeme.flatten before) + Text.byteLength lexeme.chars := by
  obtain ⟨lexeme, placed, found⟩ := exists_placed_of_mem member
  obtain ⟨before, behind, cut, start⟩ := exists_lexemes_of_placed placed
  obtain ⟨kind, -, same⟩ := Option.map_eq_some_iff.1 found
  refine ⟨before, lexeme, behind, cut, found, start, ?_⟩
  rw [← start, ← congrArg Token.stop same]

/-- **A token is a stretch of its text.** -/
theorem isStretch_token {token : Token} (member : token ∈ tokens text) :
    Text.IsStretch text token.start token.stop := by
  obtain ⟨before, lexeme, behind, cut, -, start, stop⟩ := exists_lexemes_of_mem member
  rw [start, stop]
  exact isStretch_of_lexemes cut

/-! ## Errors -/

/-- A block comment is read by its scanner alone. -/
theorem scanner_of_blockComment {c : Char} {rest : List Char} {closed : Bool}
    (kind : (classify c rest).1 = .blockComment closed) : scanner c rest.head? = .blockComment := by
  rw [classify_eq_scan] at kind
  cases known : scanner c rest.head? with
  | blockComment => rfl
  | _ => rw [known] at kind; cases kind

/-- A block comment begins with its mark. -/
theorem Lexeme.chars_of_blockComment {lexeme : Lexeme} (member : lexeme ∈ ofChars text)
    {closed : Bool} (kind : lexeme.kind = .blockComment closed) :
    ∃ more, lexeme.chars = '/' :: '*' :: more := by
  obtain ⟨c, rest, rfl⟩ := Lexeme.exists_classified member
  have scanned := scanner_of_blockComment kind
  obtain ⟨more, rfl⟩ := List.head?_eq_some_iff.1 (next_of_scanner scanned)
  obtain rfl := eq_slash_of_scanner scanned
  rw [classify_eq_scan, scanned]
  exact ⟨_, rfl⟩

/-- **What is wrong in a text is a stretch of it.** -/
theorem isStretch_error {error : LexicalError} (member : error ∈ lexicalErrors text) :
    Text.IsStretch text error.start error.stop := by
  obtain ⟨⟨lexeme, start⟩, placed, found⟩ := List.mem_filterMap.1 member
  obtain ⟨before, behind, cut, rfl⟩ := exists_lexemes_of_placed placed
  dsimp only [Lexeme.error?] at found
  split at found
  case h_1 comment =>
    rw [← Option.some.inj found]
    have listed : lexeme ∈ Lexeme.ofChars text := by
      rw [cut]
      exact List.mem_append_right _ (.head _)
    -- Only the mark of the comment is reported.
    obtain ⟨more, chars⟩ := Lexeme.chars_of_blockComment listed comment
    rw [← Lexeme.flatten_ofChars text, cut, Lexeme.flatten_append, Lexeme.flatten_cons, chars]
    exact Text.isStretch_append _ ['/', '*'] (more ++ Lexeme.flatten behind)
  case h_2 string =>
    rw [← Option.some.inj found]
    exact isStretch_of_lexemes cut
  case h_3 => cases found

/-! ## Logical lines -/

theorem isBoundary_logicalLineEndFrom (start : Nat) (front rest : List Char) (before last : Char) :
    Text.IsBoundary (front ++ rest)
      (logicalLineEndFrom start rest (Text.byteLength front) before last) := by
  induction rest generalizing front before last with
  | nil => exact Text.isBoundary_append _ _
  | cons c rest ih =>
      rw [logicalLineEndFrom]
      split
      · exact Text.isBoundary_append _ _
      · have further := ih (front ++ [c]) last c
        rw [Text.byteLength_append, List.append_assoc] at further
        exact further

/-- A logical line ends at a boundary. -/
theorem isBoundary_logicalLineEnd (text : List Char) (start : Nat) :
    Text.IsBoundary text (logicalLineEnd text start) :=
  isBoundary_logicalLineEndFrom start [] text ' ' ' '

/-- A lexeme without a line break that begins on a line ends on it. -/
theorem le_logicalLineEnd_of_lexemes {before behind : List Lexeme} {lexeme : Lexeme} {start : Nat}
    (cut : Lexeme.ofChars text = before ++ lexeme :: behind) (unbroken : '\n' ∉ lexeme.chars)
    (begins : Text.byteLength (Lexeme.flatten before) < logicalLineEnd text start) :
    Text.byteLength (Lexeme.flatten before) + Text.byteLength lexeme.chars ≤
      logicalLineEnd text start := by
  refine Nat.le_of_not_lt fun within => ?_
  have whole : text = Lexeme.flatten before ++ (lexeme.chars ++ Lexeme.flatten behind) := by
    rw [← Lexeme.flatten_ofChars text, cut, Lexeme.flatten_append, Lexeme.flatten_cons]
  obtain ⟨line, rest, split, ends⟩ := isBoundary_logicalLineEnd text start
  rw [ends] at begins within
  -- The line ends inside the lexeme, at a line break.
  rcases List.append_eq_append_iff.1 (whole.symm.trans split) with ⟨inner, rfl, part⟩ | ⟨inner, far, -⟩
  · rw [Text.byteLength_append] at within
    rcases List.append_eq_append_iff.1 part with ⟨beyond, rfl, -⟩ | ⟨last, chars, rfl⟩
    · rw [Text.byteLength_append] at within
      omega
    · cases last with
      | nil =>
          rw [chars, List.append_nil] at within
          exact Nat.lt_irrefl _ within
      | cons c last =>
          rw [split] at ends
          rw [chars, eq_lineBreak_of_logicalLineEnd ends] at unbroken
          exact unbroken (List.mem_append_right _ (.head _))
  · rw [far, Text.byteLength_append] at begins
    omega

/-- A bracket that is no string is a lexeme of its own. -/
theorem chars_of_angle {lexeme : Lexeme} (member : lexeme ∈ Lexeme.ofChars text) {start : Nat}
    {token : Token} (found : lexeme.token? start = some token) (bare : token.kind ≠ .string)
    (angle : token.text = "<") : lexeme.chars = ['<'] := by
  obtain ⟨known, spelled, -⟩ := Lexeme.token?_eq_some found
  have contents : lexeme.contents = ['<'] := by
    rw [← String.toList_ofList (l := lexeme.contents), ← spelled, angle]
    rfl
  cases kind : lexeme.kind with
  | blank | lineComment | blockComment => simp [Lexeme.tokenKind?, kind] at known
  | string => simp [Lexeme.tokenKind?, kind] at known; exact absurd known.symm bare
  | directive =>
      obtain ⟨d, more, chars, names⟩ := Lexeme.chars_of_directive member kind
      rw [Lexeme.contents, kind, chars] at contents
      obtain rfl : d = '<' := (List.cons.inj contents).1
      exact absurd (names _ (.head _)) (by decide)
  | identifier | opening | closing | other => rwa [Lexeme.contents, kind] at contents

/-- **A word that begins on a line ends on it.** -/
theorem stop_le_logicalLineEnd {token : Token} {start : Nat} (member : token ∈ tokens text)
    (word : token.kind = .identifier ∨ token.kind ≠ .string ∧ token.text = "<")
    (begins : token.start < logicalLineEnd text start) : token.stop ≤ logicalLineEnd text start := by
  obtain ⟨before, lexeme, behind, cut, found, first, stop⟩ := exists_lexemes_of_mem member
  rw [stop]
  refine le_logicalLineEnd_of_lexemes cut ?_ (first ▸ begins)
  have listed : lexeme ∈ Lexeme.ofChars text := by
    rw [cut]
    exact List.mem_append_right _ (.head _)
  rcases word with identifier | ⟨bare, angle⟩
  · intro broken
    rw [Lexeme.eq_of_identifier found identifier] at broken
    exact absurd (isAsciiBlank_of_identifier member identifier _ broken) (by decide)
  · rw [chars_of_angle listed found bare angle]
    decide

end Hdl

namespace Unit

variable {file : SourceFile} {directive : Token} {rest : List Token}

/-- An operand is one of the tokens ahead, and begins on the line. -/
theorem mem_of_operand? {name : Token} (found : operand? file directive rest = some name) :
    name ∈ rest ∧ name.kind = .identifier ∧ name.start < file.lineEnd directive := by
  obtain ⟨first, test⟩ := Option.filter_eq_some_iff.1 found
  rw [Bool.and_eq_true, decide_eq_true_eq, beq_iff_eq] at test
  exact ⟨List.mem_of_mem_head? first, test.2, test.1⟩

/-- The rest of the line behind a word of it is a stretch. -/
theorem isStretch_line {token : Token} (member : token ∈ tokens file.text)
    (word : token.kind = .identifier ∨ token.kind ≠ .string ∧ token.text = "<")
    (begins : token.start < file.lineEnd directive) :
    Text.IsStretch file.text token.stop (file.lineEnd directive) :=
  ⟨stop_le_logicalLineEnd member word begins, (isStretch_token member).stop,
    isBoundary_logicalLineEnd _ _⟩

/-- What is left of a line up to a closing bracket is a stretch, and so is that with the bracket. -/
theorem isStretch_bracketed {start stop : Nat} (line : Text.IsStretch file.text start stop)
    {inner : List Char} (name : inner = (Text.slice file.text start stop).takeWhile (· ≠ '>'))
    (closed : inner.length ≠ (Text.slice file.text start stop).length) :
    Text.IsStretch file.text start (start + Text.byteLength inner) ∧
      Text.IsStretch file.text start (start + Text.byteLength inner + 1) ∧
      Text.slice file.text start (start + Text.byteLength inner) = inner := by
  obtain ⟨before, whole, behind, split, rfl, rfl⟩ := line.exists_split
  rw [split, Text.slice_eq] at name closed
  have parts : whole = inner ++ whole.dropWhile (· ≠ '>') := by
    rw [name, List.takeWhile_append_dropWhile]
  cases left : whole.dropWhile (· ≠ '>') with
  | nil =>
      rw [left, List.append_nil] at parts
      exact absurd (congrArg List.length parts.symm) closed
  | cons c more =>
      have bracket : c = '>' := by
        have stops := List.head?_dropWhile_not (· ≠ '>') whole
        rw [left] at stops
        simpa using stops
      subst bracket
      rw [left] at parts
      rw [split, parts, List.append_assoc]
      refine ⟨Text.isStretch_append _ _ _, ?_, Text.slice_eq _ _ _⟩
      have closing := Text.isStretch_append before (inner ++ ['>']) (more ++ behind)
      rw [Text.byteLength_append, ← Nat.add_assoc, List.append_assoc] at closing
      exact closing

/-- **The place of an include name is a stretch of the file.** -/
theorem isStretch_includeName {name : String} {range : Range}
    (words : ∀ token ∈ rest, token ∈ tokens file.text)
    (found : includeName? file directive rest = some (name, range)) :
    ∃ start stop, Text.IsStretch file.text start stop ∧ range = file.range start stop := by
  rw [includeName?] at found
  dsimp only at found
  split at found
  case h_1 => cases found
  case h_2 token here =>
    obtain ⟨first, begins⟩ := Option.filter_eq_some_iff.1 here
    have member := words token (List.mem_of_mem_head? first)
    have whole := isStretch_token member
    split at found
    case isTrue quoted =>
      obtain ⟨-, rfl⟩ := Prod.mk.inj (Option.some.inj found)
      exact ⟨_, _, whole, rfl⟩
    case isFalse bare =>
      split at found
      case isFalse => cases found
      case isTrue angle =>
        split at found
        case isTrue => cases found
        case isFalse closed =>
          obtain ⟨-, rfl⟩ := Prod.mk.inj (Option.some.inj found)
          have line : Text.IsStretch file.text token.stop (file.lineEnd directive) := by
            refine isStretch_line member (.inr ⟨fun string => bare ?_, angle⟩)
              (of_decide_eq_true begins)
            rw [string, angle]
            decide
          rw [Bool.or_eq_true, not_or, decide_eq_true_eq] at closed
          have name := (isStretch_bracketed line rfl closed.2).2.1
          exact ⟨token.start, _, ⟨Nat.le_trans whole.ordered name.ordered, whole.start, name.stop⟩, rfl⟩

end Unit

end SvServer
