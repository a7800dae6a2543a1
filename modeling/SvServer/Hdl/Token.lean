import SvServer.Hdl.Lexeme

/-!
Tokens: the lexemes that are not gaps, each with its place in the source. The structure checks and
the preprocessor work on them.
-/

namespace SvServer.Hdl

/-- What a token is. -/
inductive TokenKind where
  | identifier
  | directive
  | string
  | opening (delimiter : Delimiter)
  | closing (delimiter : Delimiter)
  | other
deriving DecidableEq, Repr

/-- A token. The text of a directive has no backtick, and that of a string has no quotes; the span
is in bytes and covers both. -/
structure Token where
  kind : TokenKind
  text : String
  start : Nat
  stop : Nat
deriving DecidableEq, Repr

/-- What was never closed. -/
inductive LexicalErrorKind where
  | unterminatedComment
  | unterminatedString
deriving DecidableEq, Repr

/-- A comment or string that is never closed. -/
structure LexicalError where
  kind : LexicalErrorKind
  start : Nat
  stop : Nat
deriving DecidableEq, Repr

namespace Lexeme

/-- The kind of token that a lexeme gives, if it is not a gap. -/
def tokenKind? (lexeme : Lexeme) : Option TokenKind :=
  match lexeme.kind with
  | .blank | .lineComment | .blockComment _ => none
  | .identifier => some .identifier
  | .directive => some .directive
  | .string _ => some .string
  | .opening delimiter => some (.opening delimiter)
  | .closing delimiter => some (.closing delimiter)
  | .other => some .other

/-- The characters of a lexeme without its sigil or quotes. -/
def contents (lexeme : Lexeme) : List Char :=
  match lexeme.kind with
  | .directive | .string false => lexeme.chars.tail
  | .string true => lexeme.chars.tail.dropLast
  | _ => lexeme.chars

/-- The token of a lexeme that starts at a byte offset. -/
def token? (lexeme : Lexeme) (start : Nat) : Option Token :=
  lexeme.tokenKind?.map fun kind =>
    ⟨kind, String.ofList lexeme.contents, start, start + Text.byteLength lexeme.chars⟩

/-- The error of a lexeme that starts at a byte offset. For a comment only its opening mark is
reported, for a string all of it. -/
def error? (lexeme : Lexeme) (start : Nat) : Option LexicalError :=
  match lexeme.kind with
  | .blockComment false => some ⟨.unterminatedComment, start, start + 2⟩
  | .string false =>
    some ⟨.unterminatedString, start, start + Text.byteLength lexeme.chars⟩
  | _ => none

/-- Lexemes with the byte offsets at which they start. -/
def placed : Nat → List Lexeme → List (Lexeme × Nat)
  | _, [] => []
  | start, lexeme :: rest => (lexeme, start) :: placed (start + Text.byteLength lexeme.chars) rest

end Lexeme

/-- The tokens of a text. -/
def tokens (text : List Char) : List Token :=
  (Lexeme.placed 0 (Lexeme.ofChars text)).filterMap fun (lexeme, start) => lexeme.token? start

/-- The lexical errors of a text, in order. -/
def lexicalErrors (text : List Char) : List LexicalError :=
  (Lexeme.placed 0 (Lexeme.ofChars text)).filterMap fun (lexeme, start) => lexeme.error? start

/-! ## Logical lines -/

/-- Walks to the end of a logical line. `escaped` tells whether a line break would be escaped here:
after a backslash, or after a backslash and a carriage return. -/
def logicalLineEndFrom (start : Nat) : List Char → (position : Nat) → (before last : Char) → Nat
  | [], position, _, _ => position
  | c :: rest, position, before, last =>
    let escaped := last = '\\' ∨ (last = '\r' ∧ before = '\\')
    if start ≤ position ∧ c = '\n' ∧ ¬ escaped then position
    else logicalLineEndFrom start rest (position + c.utf8Size) last c

/-- The end of the logical line at byte `start`: the first line break from there on that no
backslash escapes, or else the end of the text. -/
def logicalLineEnd (text : List Char) (start : Nat) : Nat :=
  logicalLineEndFrom start text 0 ' ' ' '

end SvServer.Hdl
