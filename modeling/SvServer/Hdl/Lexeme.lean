import SvServer.Text.Position
import SvServer.Text.Blank

/-!
A source text as a sequence of lexemes. Every character belongs to exactly one lexeme, so putting
the lexemes back together gives the text (`Lexeme.flatten_ofChars`). Gaps (blanks and comments) are
lexemes like the others; `SvServer.Hdl.Token` leaves them out.

Numbers, operators and system names are cut only as finely as is needed to step over them.
-/

namespace SvServer.Hdl

/-- The three pairs of delimiters. -/
inductive Delimiter where
  | paren
  | bracket
  | brace
deriving DecidableEq, Repr

namespace Delimiter

/-- The opening character. -/
def openText : Delimiter → String
  | paren => "("
  | bracket => "["
  | brace => "\x7b"

/-- The closing character. -/
def closeText : Delimiter → String
  | paren => ")"
  | bracket => "]"
  | brace => "\x7d"

end Delimiter

/-- What a lexeme is. -/
inductive LexemeKind where
  | blank
  | lineComment
  | blockComment (closed : Bool)
  | identifier
  | directive
  | string (closed : Bool)
  | opening (delimiter : Delimiter)
  | closing (delimiter : Delimiter)
  | other
deriving DecidableEq, Repr

/-- A lexeme: its kind and its characters, sigils and quotes included. -/
structure Lexeme where
  kind : LexemeKind
  chars : List Char
deriving DecidableEq, Repr

/-! ## Character classes -/

/-- Characters that an identifier may begin with. -/
def isIdentifierStart (c : Char) : Bool := c.isAlpha || c = '_'

/-- Characters inside of an identifier. -/
def isIdentifierChar (c : Char) : Bool := c.isAlphanum || c = '_' || c = '$'

/-- Digits of a based number, in any base, with its unknown and open values. -/
def isBasedDigit (c : Char) : Bool :=
  c.isDigit || ('a' ≤ c && c ≤ 'f') || ('A' ≤ c && c ≤ 'F') ||
    c = '_' || c = 'x' || c = 'X' || c = 'z' || c = 'Z' || c = '?'

/-- The letters that name a base. -/
def isBase (c : Char) : Bool :=
  let lower := c.toLower
  lower = 'b' || lower = 'o' || lower = 'd' || lower = 'h'

/-- Values that may stand alone after a tick. -/
def isUnbasedValue (c : Char) : Bool :=
  c = '0' || c = '1' || c = 'x' || c = 'X' || c = 'z' || c = 'Z'

/-! ## Lengths of lexemes

Each function gives the number of characters that continue a lexeme which has already begun.
-/

/-- How many leading characters satisfy `p`. -/
def runLength (p : Char → Bool) (text : List Char) : Nat := (text.takeWhile p).length

/-- The rest of a block comment, its end mark included, and whether the end mark was found. -/
def blockCommentLength : List Char → Nat × Bool
  | [] => (0, false)
  | c :: rest =>
    if c = '*' ∧ rest.head? = some '/' then (2, true)
    else let (length, closed) := blockCommentLength rest; (length + 1, closed)

/-- The rest of a string literal, its closing quote included, and whether that quote was found. A
literal ends unclosed before a line break. A backslash keeps the character after it in the literal,
also a line break. -/
def stringLength : List Char → Nat × Bool
  | [] => (0, false)
  | '\\' :: [] => (1, false)
  | '\\' :: _ :: rest => let (length, closed) := stringLength rest; (length + 2, closed)
  | c :: rest =>
    if c = '\n' then (0, false)
    else if c = '"' then (1, true)
    else let (length, closed) := stringLength rest; (length + 1, closed)

/-- What follows the tick of a based number such as `'sd3` or of an unbased value such as `'x`;
`none` when the tick begins something else, such as a cast. -/
def basedLength? (text : List Char) : Option Nat :=
  let signLength := if text.head? = some 's' ∨ text.head? = some 'S' then 1 else 0
  match text.drop signLength with
  | base :: rest =>
    if isBase base then
      let blanks := runLength (fun c => Text.isAsciiBlank c && c ≠ '\n') rest
      let digits := runLength isBasedDigit (rest.drop blanks)
      some (signLength + 1 + blanks + digits)
    else unbased text
  | [] => unbased text
where
  /-- An unbased value is one character that no identifier character follows. -/
  unbased : List Char → Option Nat
    | value :: rest =>
      if isUnbasedValue value && !(rest.head?.any isIdentifierChar) then some 1 else none
    | [] => none

/-- The rest of a number whose first digit was read. -/
def numberLength (text : List Char) : Nat :=
  let digits := runLength (fun c => c.isDigit || c = '_' || c = '.') text
  match text.drop digits with
  | '\'' :: rest =>
    match basedLength? rest with
    | some length => digits + 1 + length
    | none => digits
  | _ => digits

/-- The kind of the lexeme that begins with `c`, and how many of the characters after `c` belong to
it. -/
def classify (c : Char) (rest : List Char) : LexemeKind × Nat :=
  if Text.isAsciiBlank c then (.blank, runLength Text.isAsciiBlank rest)
  else if c = '/' ∧ rest.head? = some '/' then (.lineComment, runLength (· ≠ '\n') rest)
  else if c = '/' ∧ rest.head? = some '*' then
    let (length, closed) := blockCommentLength rest.tail
    (.blockComment closed, length + 1)
  else if isIdentifierStart c then (.identifier, runLength isIdentifierChar rest)
  else if c = '\x60' then
    if rest.head?.any isIdentifierStart then (.directive, runLength isIdentifierChar rest)
    else (.other, 1)
  else if c = '\\' then (.identifier, runLength (fun d => !Text.isAsciiBlank d) rest)
  else if c = '$' then (.other, runLength isIdentifierChar rest)
  else if c = '"' then
    let (length, closed) := stringLength rest
    (.string closed, length)
  else if c.isDigit then (.other, numberLength rest)
  else if c = '\'' then (.other, (basedLength? rest).getD 0)
  else match c with
    | '(' => (.opening .paren, 0)
    | '[' => (.opening .bracket, 0)
    | '\x7b' => (.opening .brace, 0)
    | ')' => (.closing .paren, 0)
    | ']' => (.closing .bracket, 0)
    | '\x7d' => (.closing .brace, 0)
    | _ => (.other, 0)

namespace Lexeme

/-- The lexemes of a text, in order. -/
def ofChars : List Char → List Lexeme
  | [] => []
  | c :: rest =>
    let (kind, length) := classify c rest
    ⟨kind, c :: rest.take length⟩ :: ofChars (rest.drop length)
termination_by text => text.length
decreasing_by simp only [List.length_drop, List.length_cons]; omega

/-- The text that lexemes spell. -/
def flatten (lexemes : List Lexeme) : List Char := lexemes.flatMap chars

/-- The empty text has no lexemes. -/
theorem ofChars_nil : ofChars [] = [] := by rw [ofChars]

/-- The first lexeme takes what its first character calls for. -/
theorem ofChars_cons (c : Char) (rest : List Char) :
    ofChars (c :: rest) =
      ⟨(classify c rest).1, c :: rest.take (classify c rest).2⟩ ::
        ofChars (rest.drop (classify c rest).2) := by
  rw [ofChars]

/-- Lexing loses no character and invents none. -/
theorem flatten_ofChars (text : List Char) : flatten (ofChars text) = text := by
  fun_induction ofChars text with
  | case1 => rfl
  | case2 c rest kind length _ ih =>
    simp only [flatten, List.flatMap_cons] at ih ⊢
    rw [ih, List.cons_append, List.take_append_drop]

end Lexeme

end SvServer.Hdl
