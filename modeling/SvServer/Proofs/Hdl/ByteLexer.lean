import SvServer.Proofs.Hdl.Scanner
import SvServer.Proofs.Text.Bytes

/-!
# Lexing the bytes of a text

Lexemes can be cut out of the bytes of a text, without a look at its characters: a scanner is chosen by
a byte and the one behind it, and passes over bytes up to the end of the lexeme. Each text of a token
is cut out of the whole text then, which has no result where a cut is out of order or goes through a
character; and lexing has no result either where it does not move on. It always has one, and the tokens
and errors are those of the characters.
-/

namespace SvServer.Hdl

open Text (bytes byte run Agree isContinuation slice? byteLength)

namespace Bytewise

/-! ## Classes of bytes -/

def isAlpha (b : UInt8) : Bool :=
  (byte 'A' ≤ b && b ≤ byte 'Z') || (byte 'a' ≤ b && b ≤ byte 'z')

def isDigit (b : UInt8) : Bool := byte '0' ≤ b && b ≤ byte '9'

def isBlank (b : UInt8) : Bool :=
  b == byte ' ' || b == byte '\t' || b == byte '\n' || b == byte '\r' || b == byte '\x0c'

def isNameStart (b : UInt8) : Bool := isAlpha b || b == byte '_'

def isName (b : UInt8) : Bool := isAlpha b || isDigit b || b == byte '_' || b == byte '$'

def isNumeral (b : UInt8) : Bool := isDigit b || b == byte '_' || b == byte '.'

def isLineBlank (b : UInt8) : Bool := isBlank b && b != byte '\n'

def isBasedDigit (b : UInt8) : Bool :=
  isDigit b || (byte 'a' ≤ b && b ≤ byte 'f') || (byte 'A' ≤ b && b ≤ byte 'F') ||
    b == byte '_' || b == byte 'x' || b == byte 'X' || b == byte 'z' || b == byte 'Z' || b == byte '?'

/-- A capital letter in its small form, and any other byte as it is. -/
def toLower (b : UInt8) : UInt8 := if byte 'A' ≤ b && b ≤ byte 'Z' then b + 32 else b

def isBase (b : UInt8) : Bool :=
  let lower := toLower b
  lower == byte 'b' || lower == byte 'o' || lower == byte 'd' || lower == byte 'h'

def isUnbasedValue (b : UInt8) : Bool :=
  b == byte '0' || b == byte '1' || b == byte 'x' || b == byte 'X' || b == byte 'z' || b == byte 'Z'

/-! ## Lengths -/

/-- The bytes of the next character, if there is one. -/
def characterLength : List UInt8 → Nat
  | [] => 0
  | _ :: rest => 1 + run isContinuation rest

/-- The rest of a block comment, its end mark included, and whether the end mark was found. -/
def commentLength : List UInt8 → Nat × Bool
  | [] => (0, false)
  | b :: rest =>
    if b = byte '*' ∧ rest.headD 0 = byte '/' then (2, true)
    else let (length, closed) := commentLength rest; (length + 1, closed)

/-- The contents of a string literal, and whether a closing quote comes behind them. -/
def contentLength : List UInt8 → Nat × Bool
  | [] => (0, false)
  | b :: rest =>
    if b = byte '\n' then (0, false)
    else if b = byte '\\' then
      let escaped := characterLength rest
      let (length, closed) := contentLength (rest.drop escaped)
      (1 + escaped + length, closed)
    else if b = byte '"' then (0, true)
    else let (length, closed) := contentLength rest; (1 + length, closed)
termination_by bytes => bytes.length
decreasing_by all_goals simp only [List.length_drop, List.length_cons]; omega

/-- What follows the sign of a based number. -/
def baseLength? : List UInt8 → Option Nat
  | [] => none
  | b :: rest =>
    if isBase b then
      let blanks := run isLineBlank rest
      some (1 + blanks + run isBasedDigit (rest.drop blanks))
    else none

/-- What follows the tick of a based number or of an unbased value. -/
def basedLength? (rest : List UInt8) : Option Nat :=
  let sign := if rest.headD 0 = byte 's' ∨ rest.headD 0 = byte 'S' then 1 else 0
  match baseLength? (rest.drop sign) with
  | some length => some (sign + length)
  | none =>
    if isUnbasedValue (rest.headD 0) && !isName (rest.tail.headD 0) then some 1 else none

/-- The part of a number from its tick on. -/
def tickLength (rest : List UInt8) : Nat :=
  if rest.headD 0 = byte '\'' then ((basedLength? rest.tail).map (1 + ·)).getD 0 else 0

/-! ## Scanners -/

/-- The scanner for a first byte and the one after it, which is 0 at the end. -/
def scanner (b next : UInt8) : Scanner :=
  if isBlank b then .blanks
  else if b = byte '/' ∧ next = byte '/' then .lineComment
  else if b = byte '/' ∧ next = byte '*' then .blockComment
  else if isNameStart b then .name
  else if b = byte '\x60' then if isNameStart next then .directive else .lone
  else if b = byte '\\' then .escapedName
  else if b = byte '$' then .systemName
  else if b = byte '"' then .string
  else if isDigit b then .number
  else if b = byte '\'' then .tick
  else if b = byte '(' then .opening .paren
  else if b = byte '[' then .opening .bracket
  else if b = byte '\x7b' then .opening .brace
  else if b = byte ')' then .closing .paren
  else if b = byte ']' then .closing .bracket
  else if b = byte '\x7d' then .closing .brace
  else .symbol

/-- What one step yields: tokens and errors, and where the next one begins. -/
structure Reading where
  tokens : List Token
  errors : List LexicalError
  next : Nat

/-- The token whose text is cut out between two offsets. -/
def cut (text : List Char) (kind : TokenKind) (first last start stop : Nat) : Option Token :=
  (slice? text first last).map fun chars => ⟨kind, String.ofList chars, start, stop⟩

/-- A token that is its own text. -/
def whole (text : List Char) (kind : TokenKind) (start stop : Nat) : Option Reading :=
  (cut text kind start stop start stop).map fun token => ⟨[token], [], stop⟩

/-- One step of a scanner, behind the byte that it begins with. -/
def read (text : List Char) (start : Nat) (rest : List UInt8) : Scanner → Option Reading
  | .blanks => some ⟨[], [], start + 1 + run isBlank rest⟩
  | .lineComment => some ⟨[], [], start + 1 + run (· != byte '\n') rest⟩
  | .blockComment =>
    let (length, closed) := commentLength rest.tail
    let opening := ⟨.unterminatedComment, start, min (start + 2) (bytes text).length⟩
    some ⟨[], if closed then [] else [opening], start + 2 + length⟩
  | .name => whole text .identifier start (start + 1 + run isName rest)
  | .directive =>
    let stop := start + 1 + run isName rest
    (cut text .directive (start + 1) stop start stop).map fun token => ⟨[token], [], stop⟩
  | .lone => whole text .other start (start + 1 + characterLength rest)
  | .escapedName => whole text .identifier start (start + 1 + run (!isBlank ·) rest)
  | .systemName => whole text .other start (start + 1 + run isName rest)
  | .string =>
    let (length, closed) := contentLength rest
    let last := start + 1 + length
    let stop := if closed then last + 1 else last
    (cut text .string (start + 1) last start stop).map fun token =>
      ⟨[token], if closed then [] else [⟨.unterminatedString, start, stop⟩], stop⟩
  | .number =>
    let digits := run isNumeral rest
    whole text .other start (start + 1 + (digits + tickLength (rest.drop digits)))
  | .tick => whole text .other start (start + 1 + (basedLength? rest).getD 0)
  | .opening delimiter => whole text (.opening delimiter) start (start + 1)
  | .closing delimiter => whole text (.closing delimiter) start (start + 1)
  | .symbol => whole text .other start (start + 1 + run isContinuation rest)

/-- Lexes the bytes from an offset on. Without a result where a text cannot be cut out, or where a step
does not move on. -/
def lexFrom? (text : List Char) (start : Nat) : Option (List Token × List LexicalError) :=
  if start < (bytes text).length then
    let ahead := (bytes text).drop start
    match read text start ahead.tail (scanner (ahead.headD 0) (ahead.tail.headD 0)) with
    | none => none
    | some reading =>
      if start < reading.next then
        (lexFrom? text reading.next).map fun (tokens, errors) =>
          (reading.tokens ++ tokens, reading.errors ++ errors)
      else none
  else some ([], [])
termination_by (bytes text).length - start
decreasing_by omega

/-- Lexes the bytes of a text. -/
def lex? (text : List Char) : Option (List Token × List LexicalError) := lexFrom? text 0

/-! ## Classes of bytes and of characters -/

theorem narrow_of_bounds {c : Char} (bounds : 0x20 < c.toNat ∧ c.toNat < 0x7F) : c.toNat < 128 :=
  Nat.lt_trans bounds.2 (by decide)

theorem narrow_of_isAsciiBlank {c : Char} (blank : Text.isAsciiBlank c = true) : c.toNat < 128 := by
  simp only [Text.isAsciiBlank, Bool.or_eq_true, decide_eq_true_eq] at blank
  rcases blank with (((rfl | rfl) | rfl) | rfl) | rfl <;> decide

theorem eq_byte_iff {d : Char} (narrow : d.toNat < 128) {c : Char} {b : UInt8}
    (member : b ∈ String.utf8EncodeChar c) : b = byte d ↔ c = d := by
  rw [← beq_iff_eq, ← decide_eq_true_eq (p := c = d)]
  exact Bool.eq_iff_iff.1 (Agree.char narrow c b member)

theorem agree_isAlpha : Agree isAlpha Char.isAlpha := by
  have capitals : Agree (fun b => byte 'A' ≤ b && b ≤ byte 'Z') Char.isUpper :=
    fun c b member => by
      show _ = decide ('A' ≤ c ∧ c ≤ 'Z')
      rw [Bool.decide_and]
      exact Agree.range (by decide) (by decide) c b member
  exact capitals.or (.range (by decide) (by decide))

theorem agree_isDigit : Agree isDigit Char.isDigit := .range (by decide) (by decide)

theorem agree_isBlank : Agree isBlank Text.isAsciiBlank :=
  ((((Agree.char (by decide)).or (.char (by decide))).or (.char (by decide))).or
    (.char (by decide))).or (.char (by decide))

theorem agree_isNameStart : Agree isNameStart isIdentifierStart :=
  agree_isAlpha.or (.char (by decide))

theorem agree_isName : Agree isName isIdentifierChar :=
  ((agree_isAlpha.or agree_isDigit).or (.char (by decide))).or (.char (by decide))

theorem agree_isNumeral : Agree isNumeral Hdl.isNumeral :=
  (agree_isDigit.or (.char (by decide))).or (.char (by decide))

theorem agree_isLineBlank : Agree isLineBlank Hdl.isLineBlank :=
  agree_isBlank.and (.other (by decide))

theorem agree_isBasedDigit : Agree isBasedDigit Hdl.isBasedDigit :=
  ((((((((agree_isDigit.or (.range (by decide) (by decide))).or
    (.range (by decide) (by decide))).or (.char (by decide))).or (.char (by decide))).or
    (.char (by decide))).or (.char (by decide))).or (.char (by decide))).or (.char (by decide)))

theorem agree_isUnbasedValue : Agree isUnbasedValue Hdl.isUnbasedValue :=
  (((((Agree.char (by decide)).or (.char (by decide))).or (.char (by decide))).or
    (.char (by decide))).or (.char (by decide))).or (.char (by decide))

theorem toNat_toLower (b : UInt8) :
    (toLower b).toNat = if 65 ≤ b.toNat ∧ b.toNat ≤ 90 then b.toNat + 32 else b.toNat := by
  have capital : (byte 'A' ≤ b && b ≤ byte 'Z') = true ↔ 65 ≤ b.toNat ∧ b.toNat ≤ 90 := by
    rw [Bool.and_eq_true, decide_eq_true_eq, decide_eq_true_eq, UInt8.le_iff_toNat_le,
      UInt8.le_iff_toNat_le]
    rfl
  rw [toLower, if_congr capital rfl rfl]
  split
  case isTrue bounds =>
    rw [UInt8.toNat_add]
    exact Nat.mod_eq_of_lt (Nat.lt_of_le_of_lt (Nat.add_le_add_right bounds.2 32) (by decide))
  case isFalse => rfl

theorem toNat_charToLower (c : Char) :
    c.toLower.toNat = if 65 ≤ c.toNat ∧ c.toNat ≤ 90 then c.toNat + 32 else c.toNat := by
  have capital : c.val ≥ 'A'.val ∧ c.val ≤ 'Z'.val ↔ 65 ≤ c.toNat ∧ c.toNat ≤ 90 := by
    rw [ge_iff_le, UInt32.le_iff_toNat_le, UInt32.le_iff_toNat_le]
    rfl
  by_cases upper : c.val ≥ 'A'.val ∧ c.val ≤ 'Z'.val
  · have bounds := capital.1 upper
    have lower : c.toLower.val = c.val + 32 := congrArg Char.val (dif_pos upper)
    rw [if_pos bounds, ← Char.toNat_val, lower, UInt32.toNat_add]
    exact Nat.mod_eq_of_lt (Nat.lt_of_le_of_lt (Nat.add_le_add_right bounds.2 32) (by decide))
  · have lower : c.toLower = c := dif_neg upper
    rw [lower, if_neg (mt capital.2 upper)]

/-- A small letter is told by its byte, and its capital letter with it. -/
theorem agree_toLower {d : Char} (narrow : d.toNat < 128) :
    Agree (toLower · == byte d) (·.toLower = d) := by
  intro c b member
  rw [Bool.eq_iff_iff, beq_iff_eq, decide_eq_true_eq, ← UInt8.toNat_inj, ← Char.toNat_inj,
    Text.toNat_byte narrow, toNat_toLower, toNat_charToLower]
  have code := Text.code_of_mem member
  split <;> split <;> omega

theorem agree_isBase : Agree isBase Hdl.isBase :=
  (((agree_toLower (by decide)).or (agree_toLower (by decide))).or (agree_toLower (by decide))).or
    (agree_toLower (by decide))

/-! ## Heads -/

variable {p : UInt8 → Bool} {q : Char → Bool}

theorem bytes_cons_of_narrow {c : Char} (narrow : c.toNat < 128) (rest : List Char) :
    bytes (c :: rest) = byte c :: bytes rest := by
  rw [Text.bytes_cons, Text.utf8EncodeChar_of_narrow narrow]
  rfl

theorem utf8Size_of_narrow {c : Char} (narrow : c.toNat < 128) : c.utf8Size = 1 := by
  rw [← String.length_utf8EncodeChar c, Text.utf8EncodeChar_of_narrow narrow]
  rfl

theorem byte_of_narrow (agree : Agree p q) {c : Char} (narrow : c.toNat < 128) :
    p (byte c) = q c :=
  agree c _ (by rw [Text.utf8EncodeChar_of_narrow narrow]; exact .head _)

/-- The first byte of a text is in a class if its first character is in the class of characters. -/
theorem head_bytes (agree : Agree p q) (never : p 0 = false) (text : List Char) :
    p ((bytes text).headD 0) = text.head?.any q := by
  cases text with
  | nil => exact never
  | cons c rest =>
      obtain ⟨first, others, encoded, -, -⟩ := Text.exists_utf8EncodeChar_eq c
      rw [Text.bytes_cons, encoded, List.head?_cons, Option.any_some]
      exact agree c first (by rw [encoded]; exact .head _)

theorem head_bytes_eq_iff {d : Char} (narrow : d.toNat < 128) (present : byte d ≠ 0)
    (text : List Char) : (bytes text).headD 0 = byte d ↔ text.head? = some d := by
  have heads := head_bytes (.char narrow) (beq_false_of_ne present.symm) text
  rw [Bool.eq_iff_iff, beq_iff_eq, Option.any_eq_true] at heads
  rw [heads]
  constructor
  · rintro ⟨c, first, same⟩
    rw [first, of_decide_eq_true same]
  · exact fun first => ⟨d, first, decide_eq_true rfl⟩

/-- Behind a run of bytes stand those behind the run of characters. -/
theorem drop_run (agree : Agree p q) (text : List Char) :
    (bytes text).drop (run p (bytes text)) = bytes (text.dropWhile q) := by
  have dropped := Text.drop_bytes (text.takeWhile q) (text.dropWhile q)
  rwa [List.takeWhile_append_dropWhile, ← Text.run_bytes agree] at dropped

/-! ## Lengths in bytes -/

theorem takeWhile_isContinuation (text : List Char) :
    (bytes text).takeWhile isContinuation = [] := by
  cases text with
  | nil => rfl
  | cons c rest =>
      obtain ⟨first, others, encoded, leads, -⟩ := Text.exists_utf8EncodeChar_eq c
      rw [Text.bytes_cons, encoded, List.cons_append, List.takeWhile_cons, leads]
      rfl

/-- The bytes of the next character are passed together. -/
theorem characterLength_bytes (text : List Char) :
    characterLength (bytes text) = byteLength (text.take 1) := by
  cases text with
  | nil => rfl
  | cons c rest =>
      obtain ⟨first, others, encoded, -, continued⟩ := Text.exists_utf8EncodeChar_eq c
      have size : (String.utf8EncodeChar c).length = c.utf8Size := String.length_utf8EncodeChar c
      rw [encoded, List.length_cons] at size
      rw [Text.bytes_cons, encoded, List.cons_append, characterLength, run,
        List.takeWhile_append_of_pos continued, takeWhile_isContinuation, List.append_nil,
        Nat.add_comm, size, List.take_succ_cons, List.take_zero, Text.byteLength_cons]
      rfl

theorem commentLength_append {passed : List UInt8} (inner : ∀ b ∈ passed, b ≠ byte '*')
    (rest : List UInt8) : commentLength (passed ++ rest) =
      (passed.length + (commentLength rest).1, (commentLength rest).2) := by
  induction passed with
  | nil => rw [List.nil_append, List.length_nil, Nat.zero_add]
  | cons b passed ih =>
      obtain ⟨other, inner⟩ := List.forall_mem_cons.1 inner
      rw [List.cons_append, commentLength, if_neg fun closes => other closes.1, ih inner,
        List.length_cons, Nat.add_right_comm]

/-- The rest of a comment takes the bytes of its characters. -/
theorem commentLength_bytes (text : List Char) : commentLength (bytes text) =
    (byteLength (text.take (blockCommentLength text).1), (blockCommentLength text).2) := by
  induction text with
  | nil => rfl
  | cons c rest ih =>
      by_cases closes : c = '*' ∧ rest.head? = some '/'
      · rw [blockCommentLength_end closes]
        obtain ⟨rfl, slash⟩ := closes
        have slash' := (head_bytes_eq_iff (by decide) (by decide) rest).2 slash
        obtain ⟨more, rfl⟩ := List.head?_eq_some_iff.1 slash
        rw [bytes_cons_of_narrow (by decide), commentLength, if_pos ⟨rfl, slash'⟩]
        rfl
      · rw [blockCommentLength_inner closes, List.take_succ_cons, Text.byteLength_cons]
        by_cases star : c = '*'
        · subst star
          have other : ¬(byte '*' = byte '*' ∧ (bytes rest).headD 0 = byte '/') := fun ends =>
            closes ⟨rfl, (head_bytes_eq_iff (by decide) (by decide) rest).1 ends.2⟩
          rw [bytes_cons_of_narrow (by decide), commentLength, if_neg other, ih, Nat.add_comm]
          rfl
        · have inner : ∀ b ∈ String.utf8EncodeChar c, b ≠ byte '*' := fun b member same =>
            star ((eq_byte_iff (by decide) member).1 same)
          rw [Text.bytes_cons, commentLength_append inner, ih, String.length_utf8EncodeChar]

theorem contentLength_append {passed : List UInt8}
    (inner : ∀ b ∈ passed, b ≠ byte '\n' ∧ b ≠ byte '\\' ∧ b ≠ byte '"') (rest : List UInt8) :
    contentLength (passed ++ rest) =
      (passed.length + (contentLength rest).1, (contentLength rest).2) := by
  induction passed with
  | nil => rw [List.nil_append, List.length_nil, Nat.zero_add]
  | cons b passed ih =>
      obtain ⟨⟨lineBreak, slash, quote⟩, inner⟩ := List.forall_mem_cons.1 inner
      rw [List.cons_append, contentLength, if_neg lineBreak, if_neg slash, if_neg quote, ih inner,
        List.length_cons, Nat.add_comm passed.length 1, Nat.add_assoc]

/-- Behind the contents of a string comes its closing quote, if there is one. -/
theorem contentLength_bytes (text : List Char) : ∃ content,
    contentLength (bytes text) = (byteLength content, (stringLength text).2) ∧
      text.take (stringLength text).1 =
        content ++ if (stringLength text).2 then ['"'] else [] := by
  induction text using stringLength.induct with
  | case1 => exact ⟨[], by rw [Text.bytes_nil, contentLength]; rfl, rfl⟩
  | case2 => exact ⟨['\\'], by decide +kernel, rfl⟩
  | case3 d rest _ _ _ ih =>
      obtain ⟨content, ends, same⟩ := ih
      refine ⟨'\\' :: d :: content, ?_, ?_⟩
      · have behind : (bytes (d :: rest)).drop (characterLength (bytes (d :: rest))) = bytes rest := by
          rw [characterLength_bytes]
          exact Text.drop_bytes [d] rest
        rw [bytes_cons_of_narrow (by decide), contentLength, if_neg (by decide), if_pos rfl]
        dsimp only
        rw [behind, ends, characterLength_bytes, stringLength_escape, Text.byteLength_cons,
          Text.byteLength_cons, Nat.add_assoc]
        rfl
      · rw [stringLength_escape]
        exact congrArg (fun tail => '\\' :: d :: tail) same
  | case4 rest =>
      refine ⟨[], ?_, ?_⟩
      · rw [bytes_cons_of_narrow (by decide), contentLength, if_pos rfl, stringLength_lineBreak]
        rfl
      · rw [stringLength_lineBreak]
        rfl
  | case5 rest =>
      refine ⟨[], ?_, ?_⟩
      · rw [bytes_cons_of_narrow (by decide), contentLength, if_neg (by decide), if_neg (by decide),
          if_pos rfl, stringLength_quote]
        rfl
      · rw [stringLength_quote]
        rfl
  | case6 c rest last escape lineBreak quote _ _ _ ih =>
      obtain ⟨content, ends, same⟩ := ih
      have slash : c ≠ '\\' := by
        rintro rfl
        cases rest with
        | nil => exact last rfl rfl
        | cons d rest => exact escape d rest rfl rfl
      have inner : ∀ b ∈ String.utf8EncodeChar c, b ≠ byte '\n' ∧ b ≠ byte '\\' ∧ b ≠ byte '"' :=
        fun b member => ⟨mt (eq_byte_iff (by decide) member).1 lineBreak,
          mt (eq_byte_iff (by decide) member).1 slash, mt (eq_byte_iff (by decide) member).1 quote⟩
      refine ⟨c :: content, ?_, ?_⟩
      · rw [Text.bytes_cons, contentLength_append inner, ends, stringLength_inner slash lineBreak quote,
          String.length_utf8EncodeChar, Text.byteLength_cons]
      · rw [stringLength_inner slash lineBreak quote]
        exact congrArg (c :: ·) same

/-! ## Numbers -/

theorem take_runs (r s : Char → Bool) (text : List Char) :
    text.take (runLength r text + runLength s (text.dropWhile r)) =
      text.takeWhile r ++ (text.dropWhile r).takeWhile s := by
  rw [List.take_add, take_runLength, drop_runLength, take_runLength]

theorem baseLength?_bytes (text : List Char) : baseLength? (bytes text) =
    (Hdl.baseLength? text).map fun length => byteLength (text.take length) := by
  cases text with
  | nil => rfl
  | cons c rest =>
      rw [Hdl.baseLength?]
      cases base : Hdl.isBase c with
      | false =>
          obtain ⟨first, others, encoded, -, -⟩ := Text.exists_utf8EncodeChar_eq c
          have other : isBase first = false :=
            (agree_isBase c first (by rw [encoded]; exact .head _)).trans base
          rw [Text.bytes_cons, encoded, List.cons_append, baseLength?, other]
          rfl
      | true =>
          have narrow := narrow_of_bounds (bounds_of_isBase base)
          rw [bytes_cons_of_narrow narrow, baseLength?,
            if_pos ((byte_of_narrow agree_isBase narrow).trans base), if_pos rfl]
          dsimp only
          rw [drop_run agree_isLineBlank, Text.run_bytes agree_isLineBlank,
            Text.run_bytes agree_isBasedDigit, Option.map_some, Nat.add_assoc 1, Nat.add_assoc 1,
            Nat.add_comm 1 (runLength _ _ + _), List.take_succ_cons, take_runs, Text.byteLength_cons,
            Text.byteLength_append, utf8Size_of_narrow narrow]

/-- The sign of a based number is one byte. -/
theorem drop_sign (text : List Char) :
    (if (bytes text).headD 0 = byte 's' ∨ (bytes text).headD 0 = byte 'S' then 1 else 0) =
        signLength text ∧
      (bytes text).drop (signLength text) = bytes (text.drop (signLength text)) ∧
      byteLength (text.take (signLength text)) = signLength text := by
  refine ⟨if_congr (or_congr (head_bytes_eq_iff (by decide) (by decide) text)
    (head_bytes_eq_iff (by decide) (by decide) text)) rfl rfl, ?_⟩
  rw [signLength]
  split
  case isTrue sign =>
    rcases sign with sign | sign
    all_goals
      obtain ⟨rest, rfl⟩ := List.head?_eq_some_iff.1 sign
      exact ⟨rfl, rfl⟩
  case isFalse => exact ⟨rfl, rfl⟩

theorem unbased_bytes (text : List Char) :
    (if isUnbasedValue ((bytes text).headD 0) && !isName ((bytes text).tail.headD 0) then some 1
      else none) =
    (basedLength?.unbased text).map fun length => byteLength (text.take length) := by
  cases text with
  | nil => rfl
  | cons c rest =>
      rw [unbased_cons, head_bytes agree_isUnbasedValue (by decide)]
      cases value : Hdl.isUnbasedValue c with
      | false => simp [value]
      | true =>
          have narrow := narrow_of_bounds (bounds_of_isUnbasedValue value)
          have follows := head_bytes agree_isName (by decide) rest
          rw [bytes_cons_of_narrow narrow, List.tail_cons, follows, List.head?_cons, Option.any_some,
            value]
          split
          · rw [Option.map_some, List.take_succ_cons, Text.byteLength_cons, utf8Size_of_narrow narrow]
            rfl
          · rfl

theorem basedLength?_bytes (text : List Char) : basedLength? (bytes text) =
    (Hdl.basedLength? text).map fun length => byteLength (text.take length) := by
  obtain ⟨sign, behind, size⟩ := drop_sign text
  rw [basedLength?, sign, Hdl.basedLength?_eq, behind, baseLength?_bytes, unbased_bytes]
  cases Hdl.baseLength? (text.drop (signLength text)) with
  | none => rfl
  | some length =>
      simp only [Option.map_some, Option.some_or, List.take_add, Text.byteLength_append, size]

theorem tickLength_bytes (text : List Char) :
    tickLength (bytes text) = byteLength (text.take (Hdl.tickLength text)) := by
  have ticks := head_bytes_eq_iff (d := '\'') (by decide) (by decide) text
  rw [tickLength]
  by_cases tick : text.head? = some '\''
  · rw [if_pos (ticks.2 tick)]
    obtain ⟨rest, rfl⟩ := List.head?_eq_some_iff.1 tick
    rw [bytes_cons_of_narrow (by decide), List.tail_cons, basedLength?_bytes, Hdl.tickLength]
    cases Hdl.basedLength? rest with
    | none => rfl
    | some length =>
        rw [Option.map_some, Option.map_some, Option.map_some, Option.getD_some, Option.getD_some,
          Nat.add_comm 1 length, List.take_succ_cons, Text.byteLength_cons]
        rfl
  · rw [if_neg (mt ticks.1 tick), tickLength_of_not tick, List.take_zero]
    rfl

/-! ## Scanners and steps -/

theorem scanner_of_wide {c : Char} (wide : ¬c.toNat < 128) (next : Option Char) :
    Hdl.scanner c next = .symbol := by
  fun_cases Hdl.scanner c next with
  | case1 _ blank => exact absurd (narrow_of_isAsciiBlank blank) wide
  | case2 _ _ opens | case3 _ _ _ opens =>
      rw [opens.1] at wide
      exact absurd (by decide) wide
  | case4 _ _ _ _ start =>
      exact absurd (narrow_of_bounds (bounds_of_isIdentifierChar (isIdentifierChar_of_isIdentifierStart start))) wide
  | case10 _ _ _ _ _ _ _ _ _ digit => exact absurd (narrow_of_bounds (bounds_of_isDigit digit)) wide
  | case18 => rfl
  | _ => exact absurd (by decide) wide

/-- A text begins with a byte of its first character. -/
theorem exists_bytes_cons (c : Char) (rest : List Char) : ∃ b others,
    b ∈ String.utf8EncodeChar c ∧ bytes (c :: rest) = b :: others := by
  obtain ⟨first, others, encoded, -⟩ := Text.exists_utf8EncodeChar_eq c
  exact ⟨first, others ++ bytes rest, by rw [encoded]; exact .head _,
    by rw [Text.bytes_cons, encoded]; rfl⟩

theorem filterMap_cons_toList {α β : Type} (f : α → Option β) (a : α) (rest : List α) :
    (a :: rest).filterMap f = (f a).toList ++ rest.filterMap f := by
  rw [List.filterMap_cons]
  cases f a <;> rfl

/-- **The bytes choose the same scanner.** -/
theorem scanner_bytes (c : Char) (rest : List Char) {b : UInt8} {others : List UInt8}
    (split : bytes (c :: rest) = b :: others) :
    scanner b (others.headD 0) = Hdl.scanner c rest.head? := by
  have member : b ∈ String.utf8EncodeChar c := by
    obtain ⟨first, more, member, whole⟩ := exists_bytes_cons c rest
    rwa [(List.cons.inj (split.symm.trans whole)).1]
  have is {d : Char} (narrow : d.toNat < 128) : b = byte d ↔ c = d := eq_byte_iff narrow member
  -- The byte behind belongs to the next character if the first one is a single byte.
  have next {d : Char} (narrow : d.toNat < 128) (known : c = d) : others = bytes rest := by
    rw [bytes_cons_of_narrow (known ▸ narrow)] at split
    exact (List.cons.inj split).2.symm
  have opens {d e : Char} (narrow : d.toNat < 128) (narrow' : e.toNat < 128) (present : byte e ≠ 0) :
      b = byte d ∧ others.headD 0 = byte e ↔ c = d ∧ rest.head? = some e := by
    rw [is narrow]
    refine and_congr_right fun known => ?_
    rw [next narrow known]
    exact head_bytes_eq_iff narrow' present rest
  rw [scanner, Hdl.scanner.eq_def]
  refine if_congr (by rw [agree_isBlank c b member]) rfl ?_
  refine if_congr (opens (by decide) (by decide) (by decide)) rfl ?_
  refine if_congr (opens (by decide) (by decide) (by decide)) rfl ?_
  refine if_congr (by rw [agree_isNameStart c b member]) rfl ?_
  refine ite_congr (propext (is (by decide))) (fun known => ?_) fun _ => ?_
  · rw [next (by decide) known, head_bytes agree_isNameStart (by decide)]
  refine if_congr (is (by decide)) rfl ?_
  refine if_congr (is (by decide)) rfl ?_
  refine if_congr (is (by decide)) rfl ?_
  refine if_congr (by rw [agree_isDigit c b member]) rfl ?_
  refine if_congr (is (by decide)) rfl ?_
  simp only [is (d := '(') (by decide), is (d := '[') (by decide), is (d := '\x7b') (by decide),
    is (d := ')') (by decide), is (d := ']') (by decide), is (d := '\x7d') (by decide)]
  symm
  split <;> simp_all

/-- What a lexeme yields where it begins. -/
def Reading.ofLexeme (lexeme : Lexeme) (start : Nat) : Reading :=
  ⟨(lexeme.token? start).toList, (lexeme.error? start).toList, start + byteLength lexeme.chars⟩

section Steps

variable (front : List Char) {c : Char} (narrow : c.toNat < 128) (rest : List Char)

theorem run_take (agree : Agree p q) :
    run p (bytes rest) = byteLength (rest.take (runLength q rest)) := by
  rw [Text.run_bytes agree, take_runLength]

include narrow in
theorem stop_eq {length count : Nat} (same : length = byteLength (rest.take count)) :
    byteLength front + 1 + length = byteLength front + byteLength (c :: rest.take count) := by
  rw [Text.byteLength_cons, utf8Size_of_narrow narrow, ← same, Nat.add_assoc]

/-- A lexeme is cut out of its text. -/
theorem whole_take (c : Char) (kind : TokenKind) (count : Nat) :
    let stop := byteLength front + byteLength (c :: rest.take count)
    whole (front ++ c :: rest) kind (byteLength front) stop =
      some ⟨[⟨kind, String.ofList (c :: rest.take count), byteLength front, stop⟩], [], stop⟩ := by
  intro stop
  have cuts : slice? (front ++ c :: rest) (byteLength front) stop = some (c :: rest.take count) := by
    have cuts := Text.slice?_append front (c :: rest.take count) (rest.drop count)
    rwa [List.cons_append, List.take_append_drop] at cuts
  rw [whole, cut, cuts]
  rfl

include narrow in
theorem slice?_behind (inner behind : List Char) (split : rest = inner ++ behind) :
    slice? (front ++ c :: rest) (byteLength front + 1) (byteLength front + 1 + byteLength inner) =
      some inner := by
  have cuts := Text.slice?_append (front ++ [c]) inner behind
  rwa [← split, Text.byteLength_append, Text.byteLength_cons, Text.byteLength_nil, Nat.add_zero,
    utf8Size_of_narrow narrow, List.append_assoc] at cuts

include narrow in
theorem read_directive : read (front ++ c :: rest) (byteLength front) (bytes rest) .directive =
    some (.ofLexeme ⟨.directive, c :: rest.take (runLength isIdentifierChar rest)⟩
      (byteLength front)) := by
  have cuts := slice?_behind front narrow rest _ _
    (List.take_append_drop (runLength isIdentifierChar rest) rest).symm
  rw [read, run_take rest agree_isName, cut, cuts, stop_eq front narrow rest rfl]
  rfl

include narrow in
theorem read_string : read (front ++ c :: rest) (byteLength front) (bytes rest) .string =
    some (.ofLexeme ⟨.string (stringLength rest).2, c :: rest.take (stringLength rest).1⟩
      (byteLength front)) := by
  obtain ⟨content, length, taken⟩ := contentLength_bytes rest
  have split := (List.take_append_drop (stringLength rest).1 rest).symm
  rw [taken, List.append_assoc] at split
  rw [read, length]
  dsimp only
  rw [cut, slice?_behind front narrow rest content _ split, taken]
  -- Without a closing quote the contents go on to the end of the string.
  cases (stringLength rest).2 with
  | true =>
      have stop : byteLength front + 1 + byteLength content + 1 =
          byteLength front + byteLength (c :: (content ++ ['"'])) := by
        rw [Text.byteLength_cons, utf8Size_of_narrow narrow, Text.byteLength_append, Nat.add_assoc,
          Nat.add_assoc, ← Nat.add_assoc 1]
        rfl
      have contents : Lexeme.contents ⟨.string true, c :: (content ++ ['"'])⟩ = content :=
        List.dropLast_concat
      rw [if_pos rfl, if_pos rfl, if_pos rfl, stop, Reading.ofLexeme, Lexeme.token?, contents]
      rfl
  | false =>
      have stop : byteLength front + 1 + byteLength content =
          byteLength front + byteLength (c :: content) := by
        rw [Text.byteLength_cons, utf8Size_of_narrow narrow, Nat.add_assoc]
      rw [if_neg Bool.false_ne_true, if_neg Bool.false_ne_true, if_neg Bool.false_ne_true,
        List.append_nil, stop]
      rfl

include narrow in
theorem read_blockComment (star : rest.head? = some '*') :
    read (front ++ c :: rest) (byteLength front) (bytes rest) .blockComment =
      some (.ofLexeme ⟨.blockComment (blockCommentLength rest.tail).2,
        c :: rest.take ((blockCommentLength rest.tail).1 + 1)⟩ (byteLength front)) := by
  obtain ⟨more, rfl⟩ := List.head?_eq_some_iff.1 star
  have opening : min (byteLength front + 2) (bytes (front ++ c :: '*' :: more)).length =
      byteLength front + 2 := by
    refine Nat.min_eq_left ?_
    rw [Text.length_bytes, Text.byteLength_append, Text.byteLength_cons, Text.byteLength_cons,
      utf8Size_of_narrow narrow, utf8Size_of_narrow (by decide)]
    omega
  have stop (taken : List Char) : byteLength front + 2 + byteLength taken =
      byteLength front + byteLength (c :: '*' :: taken) := by
    rw [Text.byteLength_cons, Text.byteLength_cons, utf8Size_of_narrow narrow,
      utf8Size_of_narrow (by decide), ← Nat.add_assoc 1, Nat.add_assoc]
  rw [read, opening, bytes_cons_of_narrow (by decide), List.tail_cons, List.tail_cons,
    commentLength_bytes, List.take_succ_cons]
  dsimp only
  rw [stop]
  cases (blockCommentLength more).2 <;> rfl

include narrow in
/-- **A scanner passes over the bytes of its lexeme.** -/
theorem read_scan {used : Scanner} (known : Hdl.scanner c rest.head? = used) (solid : used ≠ .symbol) :
    read (front ++ c :: rest) (byteLength front) (bytes rest) used =
      some (.ofLexeme ⟨(used.scan rest).1, c :: rest.take (used.scan rest).2⟩
        (byteLength front)) := by
  cases used with
  | symbol => exact absurd rfl solid
  | blanks =>
      rw [read, stop_eq front narrow rest (run_take rest agree_isBlank)]
      rfl
  | lineComment =>
      rw [read, stop_eq front narrow rest (run_take rest (.other (by decide)))]
      rfl
  | blockComment => exact read_blockComment front narrow rest (next_of_scanner known)
  | name =>
      rw [read, stop_eq front narrow rest (run_take rest agree_isName), whole_take]
      rfl
  | directive => exact read_directive front narrow rest
  | lone =>
      rw [read, stop_eq front narrow rest (characterLength_bytes rest), whole_take]
      rfl
  | escapedName =>
      rw [read, stop_eq front narrow rest (run_take rest agree_isBlank.not), whole_take]
      rfl
  | systemName =>
      rw [read, stop_eq front narrow rest (run_take rest agree_isName), whole_take]
      rfl
  | string => exact read_string front narrow rest
  | number =>
      have length : run isNumeral (bytes rest) + tickLength ((bytes rest).drop (run isNumeral (bytes rest))) =
          byteLength (rest.take (numberLength rest)) := by
        rw [numberLength_digits, List.take_add, Text.byteLength_append, drop_runLength,
          drop_run agree_isNumeral, tickLength_bytes, run_take rest agree_isNumeral]
      rw [read, stop_eq front narrow rest length, whole_take]
      rfl
  | tick =>
      have length : (basedLength? (bytes rest)).getD 0 =
          byteLength (rest.take ((Hdl.basedLength? rest).getD 0)) := by
        rw [basedLength?_bytes]
        cases Hdl.basedLength? rest <;> rfl
      rw [read, stop_eq front narrow rest length, whole_take]
      rfl
  | opening delimiter =>
      have stop := stop_eq front narrow rest (show 0 = byteLength (rest.take 0) from rfl)
      rw [read, ← Nat.add_zero (byteLength front + 1), stop, whole_take]
      rfl
  | closing delimiter =>
      have stop := stop_eq front narrow rest (show 0 = byteLength (rest.take 0) from rfl)
      rw [read, ← Nat.add_zero (byteLength front + 1), stop, whole_take]
      rfl

end Steps

/-- A symbol is one character. -/
theorem read_symbol (front : List Char) (c : Char) (rest : List Char) {b : UInt8}
    {others : List UInt8} (split : bytes (c :: rest) = b :: others) :
    read (front ++ c :: rest) (byteLength front) others .symbol =
      some (.ofLexeme ⟨.other, [c]⟩ (byteLength front)) := by
  have length := characterLength_bytes (c :: rest)
  rw [split, characterLength] at length
  rw [read, Nat.add_assoc, length]
  exact whole_take front rest c .other 0

/-- **A step reads one lexeme.** -/
theorem read_eq (front : List Char) (c : Char) (rest : List Char) {b : UInt8}
    {others : List UInt8} (split : bytes (c :: rest) = b :: others) :
    read (front ++ c :: rest) (byteLength front) others (scanner b (others.headD 0)) =
      some (.ofLexeme ⟨(classify c rest).1, c :: rest.take (classify c rest).2⟩
        (byteLength front)) := by
  rw [scanner_bytes c rest split, classify_eq_scan]
  cases known : Hdl.scanner c rest.head? with
  | symbol => exact read_symbol front c rest split
  | _ =>
      have narrow : c.toNat < 128 := Classical.byContradiction fun wide => by
        cases known.symm.trans (scanner_of_wide wide _)
      rw [bytes_cons_of_narrow narrow] at split
      rw [← (List.cons.inj split).2]
      exact read_scan front narrow rest known (fun same => by cases same)

/-! ## Lexing -/

theorem lexFrom?_append (front rest : List Char) :
    lexFrom? (front ++ rest) (byteLength front) =
      some ((Lexeme.placed (byteLength front) (Lexeme.ofChars rest)).filterMap
          (fun (lexeme, start) => lexeme.token? start),
        (Lexeme.placed (byteLength front) (Lexeme.ofChars rest)).filterMap
          (fun (lexeme, start) => lexeme.error? start)) := by
  induction rest using Lexeme.ofChars.induct generalizing front with
  | case1 =>
      rw [List.append_nil, lexFrom?, if_neg (by rw [Text.length_bytes]; exact Nat.lt_irrefl _),
        Lexeme.ofChars_nil]
      rfl
  | case2 c rest kind length classified ih =>
      have filled : 0 < byteLength (c :: rest.take length) :=
        Text.byteLength_pos (List.cons_ne_nil _ _)
      have within : byteLength front < (bytes (front ++ c :: rest)).length := by
        rw [Text.length_bytes, Text.byteLength_append]
        exact Nat.lt_add_of_pos_right (Text.byteLength_pos (List.cons_ne_nil _ _))
      obtain ⟨b, others, -, split⟩ := exists_bytes_cons c rest
      have step := read_eq front c rest split
      have further := ih (front ++ c :: rest.take length)
      rw [List.append_assoc, List.cons_append, List.take_append_drop, Text.byteLength_append] at further
      rw [lexFrom?, if_pos within]
      dsimp only
      rw [Text.drop_bytes, split, List.tail_cons, List.headD_cons, step, Lexeme.ofChars_cons, classified]
      dsimp only [Reading.ofLexeme, Lexeme.placed]
      rw [if_pos (Nat.lt_add_of_pos_right filled), further, Option.map_some, filterMap_cons_toList,
        filterMap_cons_toList]

end Bytewise

/-- **Lexing the bytes has a result**, that of the characters. -/
theorem lex?_eq_some (text : List Char) :
    Bytewise.lex? text = some (tokens text, lexicalErrors text) :=
  Bytewise.lexFrom?_append [] text

/-- Characters of two bytes behind a backtick and behind a backslash. -/
example : Bytewise.lex? "`é \"\\é\"".toList =
    some ([⟨.other, "`é", 0, 3⟩, ⟨.string, "\\é", 4, 9⟩], []) := by decide +kernel

end SvServer.Hdl
