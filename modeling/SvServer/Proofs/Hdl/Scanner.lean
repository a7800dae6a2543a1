import SvServer.Proofs.Hdl.Token

/-!
# The scanner of a lexeme

Which scanner reads a lexeme is settled by its first character and by at most the one after it
(`scanner`), and the scanner settles the kind of the lexeme and where it ends (`Scanner.scan`).
-/

namespace SvServer.Hdl

/-! ## Blanks and other characters -/

theorem isBlank_of_isAsciiBlank {c : Char} (h : Text.isAsciiBlank c = true) :
    Text.isBlank c = true := by
  simp only [Text.isAsciiBlank, Bool.or_eq_true, decide_eq_true_eq] at h
  rcases h with (((rfl | rfl) | rfl) | rfl) | rfl <;> decide

theorem isBlank_of_between {c : Char} (above : 0x20 < c.toNat) (below : c.toNat < 0x85) :
    Text.isBlank c = false := by
  simp only [Text.isBlank, Bool.or_eq_false_iff, Bool.and_eq_false_iff, decide_eq_false_iff_not]
  omega

/-- Letters and digits are visible characters of one byte. -/
theorem bounds_of_isAlphanum {c : Char} (h : c.isAlphanum = true) :
    0x20 < c.toNat ∧ c.toNat < 0x7F := by
  have ranges : ((decide (c.val ≥ 'A'.val ∧ c.val ≤ 'Z'.val) ||
      decide (c.val ≥ 'a'.val) && decide (c.val ≤ 'z'.val)) ||
      decide (c.val ≥ '0'.val) && decide (c.val ≤ '9'.val)) = true := h
  simp only [Bool.or_eq_true, Bool.and_eq_true, decide_eq_true_eq, UInt32.le_iff_toNat_le,
    ge_iff_le] at ranges
  have value : c.toNat = c.val.toNat := rfl
  have : 'A'.val.toNat = 65 := rfl
  have : 'Z'.val.toNat = 90 := rfl
  have : 'a'.val.toNat = 97 := rfl
  have : 'z'.val.toNat = 122 := rfl
  have : '0'.val.toNat = 48 := rfl
  have : '9'.val.toNat = 57 := rfl
  exact ⟨by omega, by omega⟩

theorem bounds_of_isDigit {c : Char} (h : c.isDigit = true) : 0x20 < c.toNat ∧ c.toNat < 0x7F :=
  bounds_of_isAlphanum (by rw [Char.isAlphanum, h, Bool.or_true])

theorem isBlank_of_bounds {c : Char} (bounds : 0x20 < c.toNat ∧ c.toNat < 0x7F) :
    Text.isBlank c = false :=
  isBlank_of_between bounds.1 (by omega)

theorem isBlank_of_isAlphanum {c : Char} (h : c.isAlphanum = true) : Text.isBlank c = false :=
  isBlank_of_bounds (bounds_of_isAlphanum h)

theorem bounds_of_isIdentifierChar {c : Char} (h : isIdentifierChar c = true) :
    0x20 < c.toNat ∧ c.toNat < 0x7F := by
  simp only [isIdentifierChar, Bool.or_eq_true, decide_eq_true_eq] at h
  rcases h with (alphanum | rfl) | rfl
  · exact bounds_of_isAlphanum alphanum
  · decide
  · decide

theorem isBlank_of_isIdentifierChar {c : Char} (h : isIdentifierChar c = true) :
    Text.isBlank c = false :=
  isBlank_of_bounds (bounds_of_isIdentifierChar h)

theorem isIdentifierChar_of_isIdentifierStart {c : Char} (h : isIdentifierStart c = true) :
    isIdentifierChar c = true := by
  simp only [isIdentifierStart, isIdentifierChar, Char.isAlphanum, Bool.or_eq_true] at h ⊢
  exact .inl (h.imp_left .inl)

theorem bounds_of_isBasedDigit {c : Char} (h : isBasedDigit c = true) :
    0x20 < c.toNat ∧ c.toNat < 0x7F := by
  have within : ∀ {low high : Char}, (low ≤ c && c ≤ high) = true → 0x20 < low.toNat →
      high.toNat < 0x7F → 0x20 < c.toNat ∧ c.toNat < 0x7F := by
    intro low high between above below
    simp only [Bool.and_eq_true, decide_eq_true_eq, Char.le_def, UInt32.le_iff_toNat_le] at between
    exact ⟨Nat.lt_of_lt_of_le above between.1, Nat.lt_of_le_of_lt between.2 below⟩
  simp only [isBasedDigit, Bool.or_eq_true, decide_eq_true_eq] at h
  rcases h with ((((((((digit | lower) | upper) | rfl) | rfl) | rfl) | rfl) | rfl) | rfl)
  · exact bounds_of_isDigit digit
  · exact within lower (by decide) (by decide)
  · exact within upper (by decide) (by decide)
  all_goals decide

theorem isBlank_of_isBasedDigit {c : Char} (h : isBasedDigit c = true) :
    Text.isBlank c = false :=
  isBlank_of_bounds (bounds_of_isBasedDigit h)

theorem bounds_of_isBase {c : Char} (h : isBase c = true) : 0x20 < c.toNat ∧ c.toNat < 0x7F := by
  by_cases upper : c.val ≥ 'A'.val ∧ c.val ≤ 'Z'.val
  · have isUpper : c.isUpper = true := decide_eq_true upper
    refine bounds_of_isAlphanum ?_
    show ((c.isUpper || c.isLower) || c.isDigit) = true
    rw [isUpper, Bool.true_or, Bool.true_or]
  · have lower : c.toLower = c := dif_neg upper
    simp only [isBase, lower, Bool.or_eq_true, decide_eq_true_eq] at h
    rcases h with ((rfl | rfl) | rfl) | rfl <;> decide

theorem isBlank_of_isBase {c : Char} (h : isBase c = true) : Text.isBlank c = false :=
  isBlank_of_bounds (bounds_of_isBase h)

theorem isAsciiBlank_of_isBase {c : Char} (h : isBase c = true) : Text.isAsciiBlank c = false :=
  Bool.eq_false_iff.2 fun blank =>
    Bool.false_ne_true ((isBlank_of_isBase h).symm.trans (isBlank_of_isAsciiBlank blank))

theorem bounds_of_isUnbasedValue {c : Char} (h : isUnbasedValue c = true) :
    0x20 < c.toNat ∧ c.toNat < 0x7F := by
  simp only [isUnbasedValue, Bool.or_eq_true, decide_eq_true_eq] at h
  rcases h with ((((rfl | rfl) | rfl) | rfl) | rfl) | rfl <;> decide

theorem isUnbasedValue_of_isBlank {c : Char} (h : Text.isBlank c = true) :
    isUnbasedValue c = false :=
  Bool.eq_false_iff.2 fun value =>
    Bool.false_ne_true ((isBlank_of_bounds (bounds_of_isUnbasedValue value)).symm.trans h)

/-! ## Runs of characters -/

theorem take_runLength (p : Char → Bool) (text : List Char) :
    text.take (runLength p text) = text.takeWhile p :=
  (List.prefix_iff_eq_take.1 (List.takeWhile_prefix p)).symm

theorem drop_runLength (p : Char → Bool) (text : List Char) :
    text.drop (runLength p text) = text.dropWhile p := by
  induction text with
  | nil => rfl
  | cons c rest ih =>
      rw [runLength, List.takeWhile_cons, List.dropWhile_cons]
      split
      · exact ih
      · rfl

/-! ## Parts of comments and strings -/

theorem blockCommentLength_end {c : Char} {rest : List Char}
    (closes : c = '*' ∧ rest.head? = some '/') : blockCommentLength (c :: rest) = (2, true) := by
  rw [blockCommentLength, if_pos closes]

theorem blockCommentLength_inner {c : Char} {rest : List Char}
    (goes : ¬(c = '*' ∧ rest.head? = some '/')) : blockCommentLength (c :: rest) =
      ((blockCommentLength rest).1 + 1, (blockCommentLength rest).2) := by
  rw [blockCommentLength, if_neg goes]

theorem blockCommentLength_pos {text : List Char} (filled : text ≠ []) :
    0 < (blockCommentLength text).1 := by
  obtain ⟨c, rest, rfl⟩ := List.exists_cons_of_ne_nil filled
  rw [blockCommentLength]
  split
  · decide
  · exact Nat.succ_pos _

theorem stringLength_escape (c : Char) (rest : List Char) : stringLength ('\\' :: c :: rest) =
    ((stringLength rest).1 + 2, (stringLength rest).2) := by
  rw [stringLength]

theorem stringLength_inner {c : Char} (slash : c ≠ '\\') (lineBreak : c ≠ '\n') (quote : c ≠ '"')
    (rest : List Char) :
    stringLength (c :: rest) = ((stringLength rest).1 + 1, (stringLength rest).2) := by
  rw [stringLength, if_neg lineBreak, if_neg quote]
  · exact fun same _ => slash same
  · exact fun _ _ same _ => slash same

theorem stringLength_lineBreak (rest : List Char) : stringLength ('\n' :: rest) = (0, false) := by
  simp [stringLength]

theorem stringLength_quote (rest : List Char) : stringLength ('"' :: rest) = (1, true) := by
  simp [stringLength]

/-- Only a line break ends a string before its first character. -/
theorem eq_lineBreak_of_stringLength {c : Char} {rest : List Char}
    (ends : (stringLength (c :: rest)).1 = 0) : c = '\n' := by
  by_contra lineBreak
  by_cases escape : c = '\\'
  · subst escape
    cases rest with
    | nil => exact absurd ends (by decide)
    | cons d rest => rw [stringLength_escape] at ends; exact absurd ends (Nat.succ_ne_zero _)
  · by_cases quote : c = '"'
    · rw [quote, stringLength_quote] at ends
      exact absurd ends (by decide)
    · rw [stringLength_inner escape lineBreak quote] at ends
      exact absurd ends (Nat.succ_ne_zero _)

/-! ## Parts of a number -/

/-- The blanks that may stand between the base of a number and its digits. -/
def isLineBlank (c : Char) : Bool := Text.isAsciiBlank c && c ≠ '\n'

/-- What follows the sign of a based number: the base, blanks and digits. -/
def baseLength? : List Char → Option Nat
  | [] => none
  | base :: rest =>
    if isBase base then
      some (1 + runLength isLineBlank rest + runLength isBasedDigit (rest.dropWhile isLineBlank))
    else none

/-- The length of the sign of a based number. -/
def signLength (text : List Char) : Nat :=
  if text.head? = some 's' ∨ text.head? = some 'S' then 1 else 0

theorem basedLength?_eq (text : List Char) :
    basedLength? text =
      ((baseLength? (text.drop (signLength text))).map (signLength text + ·)).or
        (basedLength?.unbased text) := by
  rw [basedLength?, ← signLength]
  cases text.drop (signLength text) with
  | nil => rfl
  | cons base rest =>
      dsimp only [baseLength?]
      split
      · rw [← drop_runLength]
        simp only [Option.map_some, Option.some_or, Nat.add_assoc]
        rfl
      · rfl

theorem baseLength?_pos {text : List Char} {length : Nat} (known : baseLength? text = some length) :
    0 < length := by
  cases text with
  | nil => cases known
  | cons c rest =>
      rw [baseLength?] at known
      split at known
      · rw [← Option.some.inj known, Nat.add_assoc, Nat.add_comm]
        exact Nat.succ_pos _
      · cases known

theorem unbased_cons (c : Char) (rest : List Char) : basedLength?.unbased (c :: rest) =
    if isUnbasedValue c && !rest.head?.any isIdentifierChar then some 1 else none := by
  rw [basedLength?.unbased]

theorem basedLength?_pos {text : List Char} {length : Nat}
    (known : basedLength? text = some length) : 0 < length := by
  rw [basedLength?_eq] at known
  cases base : baseLength? (text.drop (signLength text)) with
  | some count =>
      rw [base, Option.map_some, Option.some_or] at known
      rw [← Option.some.inj known]
      exact Nat.add_pos_right _ (baseLength?_pos base)
  | none =>
      rw [base, Option.map_none, Option.none_or] at known
      cases text with
      | nil => cases known
      | cons c rest =>
          rw [unbased_cons] at known
          split at known
          · rw [← Option.some.inj known]
            exact Nat.one_pos
          · cases known

/-- The characters of a number before a tick. -/
def isNumeral (c : Char) : Bool := c.isDigit || c = '_' || c = '.'

/-- The part of a number from its tick on. -/
def tickLength : List Char → Nat
  | '\'' :: rest => ((basedLength? rest).map (1 + ·)).getD 0
  | _ => 0

theorem numberLength_digits (text : List Char) :
    numberLength text =
      runLength isNumeral text + tickLength (text.dropWhile isNumeral) := by
  rw [← drop_runLength, numberLength]
  show (match text.drop (runLength isNumeral text) with | '\'' :: rest => _ | _ => _) = _
  split
  case h_1 rest split =>
    rw [split, tickLength]
    cases basedLength? rest with
    | none => rfl
    | some length => exact Nat.add_assoc _ _ _
  case h_2 other =>
    rw [tickLength]
    · rfl
    · exact other

theorem tickLength_of_not {text : List Char} (h : text.head? ≠ some '\'') : tickLength text = 0 := by
  rw [tickLength]
  rintro rest rfl
  exact h rfl

/-! ## Scanners -/

/-- The ways to read a lexeme. -/
inductive Scanner where
  | blanks
  | lineComment
  | blockComment
  | name
  | directive
  | lone
  | escapedName
  | systemName
  | string
  | number
  | tick
  | opening (delimiter : Delimiter)
  | closing (delimiter : Delimiter)
  | symbol

/-- The scanner for a first character and the one after it. -/
def scanner (c : Char) (next : Option Char) : Scanner :=
  if Text.isAsciiBlank c then .blanks
  else if c = '/' ∧ next = some '/' then .lineComment
  else if c = '/' ∧ next = some '*' then .blockComment
  else if isIdentifierStart c then .name
  else if c = '\x60' then if next.any isIdentifierStart then .directive else .lone
  else if c = '\\' then .escapedName
  else if c = '$' then .systemName
  else if c = '"' then .string
  else if c.isDigit then .number
  else if c = '\'' then .tick
  else match c with
    | '(' => .opening .paren
    | '[' => .opening .bracket
    | '\x7b' => .opening .brace
    | ')' => .closing .paren
    | ']' => .closing .bracket
    | '\x7d' => .closing .brace
    | _ => .symbol

/-- The kind of a lexeme, and how many characters belong to it behind the first one. -/
def Scanner.scan (rest : List Char) : Scanner → LexemeKind × Nat
  | .blanks => (.blank, runLength Text.isAsciiBlank rest)
  | .lineComment => (.lineComment, runLength (· ≠ '\n') rest)
  | .blockComment =>
    (.blockComment (blockCommentLength rest.tail).2, (blockCommentLength rest.tail).1 + 1)
  | .name => (.identifier, runLength isIdentifierChar rest)
  | .directive => (.directive, runLength isIdentifierChar rest)
  | .lone => (.other, 1)
  | .escapedName => (.identifier, runLength (fun d => !Text.isAsciiBlank d) rest)
  | .systemName => (.other, runLength isIdentifierChar rest)
  | .string => (.string (stringLength rest).2, (stringLength rest).1)
  | .number => (.other, numberLength rest)
  | .tick => (.other, (basedLength? rest).getD 0)
  | .opening delimiter => (.opening delimiter, 0)
  | .closing delimiter => (.closing delimiter, 0)
  | .symbol => (.other, 0)

theorem classify_eq_scan (c : Char) (rest : List Char) :
    classify c rest = (scanner c rest.head?).scan rest := by
  simp only [classify, scanner, apply_ite (Scanner.scan rest)]
  -- The two choices are made by the same questions in the same order.
  repeat' refine if_congr Iff.rfl ?_ ?_
  any_goals rfl
  split <;> simp_all [Scanner.scan]

theorem scanner_congr (c : Char) {next next' : Option Char}
    (slash : next' = some '/' ↔ next = some '/') (star : next' = some '*' ↔ next = some '*')
    (start : next'.any isIdentifierStart = next.any isIdentifierStart) :
    scanner c next' = scanner c next := by
  simp only [scanner, slash, star, start]

theorem isAsciiBlank_of_scanner {c : Char} {next : Option Char} :
    scanner c next = .blanks → Text.isAsciiBlank c = true := by
  fun_cases scanner c next with
  | case1 _ blank => exact fun _ => blank
  | _ => exact nofun

theorem next_of_scanner {c : Char} {next : Option Char} :
    scanner c next = .blockComment → next = some '*' := by
  fun_cases scanner c next with
  | case3 _ _ _ opens => exact fun _ => opens.2
  | _ => exact nofun

theorem eq_slash_of_scanner {c : Char} {next : Option Char} :
    scanner c next = .blockComment → c = '/' := by
  fun_cases scanner c next with
  | case3 _ _ _ opens => exact fun _ => opens.1
  | _ => exact nofun

theorem eq_tick_of_scanner {c : Char} {next : Option Char} :
    scanner c next = .tick → c = '\'' := by
  fun_cases scanner c next with
  | case11 => exact fun _ => rfl
  | _ => exact nofun

/-- No scanner but that of blanks begins with a blank. -/
theorem scanner_of_isBlank {c : Char} (blank : Text.isBlank c = true) (next : Option Char) :
    scanner c next = .blanks ∨ scanner c next = .symbol := by
  fun_cases scanner c next with
  | case1 => exact .inl rfl
  | case2 _ _ opens | case3 _ _ _ opens =>
      rw [opens.1] at blank
      exact absurd blank (by decide)
  | case4 _ _ _ _ start =>
      have solid := isBlank_of_isIdentifierChar (isIdentifierChar_of_isIdentifierStart start)
      exact absurd (solid.symm.trans blank) Bool.false_ne_true
  | case10 _ _ _ _ _ _ _ _ _ digit =>
      have solid := isBlank_of_bounds (bounds_of_isDigit digit)
      exact absurd (solid.symm.trans blank) Bool.false_ne_true
  | case18 => exact .inr rfl
  | _ => exact absurd blank (by decide)

end SvServer.Hdl
