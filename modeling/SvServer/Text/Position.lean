/-!
Positions in a text. Editors count lines and UTF-16 units within a line; the lexer counts bytes of
the UTF-8 form. Both are walked over the characters of the text, so an answer always belongs to the
characters that were passed.
-/

namespace SvServer

/-- A line and a column, both from zero; columns count UTF-16 units. -/
structure Position where
  line : Nat
  character : Nat
deriving DecidableEq, Repr, Inhabited

/-- A stretch of text between two positions. -/
structure Range where
  start : Position
  stop : Position
deriving DecidableEq, Repr, Inhabited

/-- Number of UTF-16 units of a character. -/
def units16 (c : Char) : Nat := if c.val < 0x10000 then 1 else 2

namespace Text

/-- Number of bytes of a text. -/
def byteLength (text : List Char) : Nat := text.foldr (fun c total => c.utf8Size + total) 0

/-- Number of lines; a text without a line break has one. -/
def lineCount (text : List Char) : Nat := text.count '\n' + 1

/-- The line that holds the byte at `offset`: how many line breaks come before it. -/
def lineOf : List Char → Nat → Nat
  | [], _ => 0
  | c :: rest, offset =>
    if offset = 0 then 0
    else (if c = '\n' then 1 else 0) + lineOf rest (offset - c.utf8Size)

/-- The position one character further. -/
def advance (c : Char) (position : Position) : Position :=
  if c = '\n' then ⟨position.line + 1, 0⟩ else ⟨position.line, position.character + units16 c⟩

/-- Walks `offset` bytes on from a position. -/
def positionFrom : List Char → Nat → Position → Position
  | [], _, position => position
  | c :: rest, offset, position =>
    if offset = 0 then position
    else positionFrom rest (offset - c.utf8Size) (advance c position)

/-- The position of a byte offset. Offsets past the end give the end of the text. -/
def position (text : List Char) (offset : Nat) : Position :=
  positionFrom text offset ⟨0, 0⟩

/-- Bytes up to the given column of the first line, or to the end of that line. -/
def columnOffset : List Char → Nat → Nat
  | [], _ => 0
  | c :: rest, character =>
    if character = 0 ∨ c = '\n' then 0
    else c.utf8Size + columnOffset rest (character - units16 c)

/-- The byte offset of a position. Columns past the end of a line give its end, lines past the last
give the end of the text. -/
def offset : List Char → Position → Nat
  | text, ⟨0, character⟩ => columnOffset text character
  | [], ⟨_ + 1, _⟩ => 0
  | c :: rest, ⟨line + 1, character⟩ =>
    c.utf8Size + offset rest ⟨if c = '\n' then line else line + 1, character⟩

/-- The characters from a byte offset on. An offset inside a character counts as its end. -/
def dropBytes : List Char → Nat → List Char
  | text, 0 => text
  | [], _ + 1 => []
  | c :: rest, count + 1 => dropBytes rest (count + 1 - c.utf8Size)

/-- The characters before a byte offset. An offset inside a character counts as its end. -/
def takeBytes : List Char → Nat → List Char
  | _, 0 => []
  | [], _ + 1 => []
  | c :: rest, count + 1 => c :: takeBytes rest (count + 1 - c.utf8Size)

/-- The characters between two byte offsets. -/
def slice (text : List Char) (start stop : Nat) : List Char :=
  takeBytes (dropBytes text start) (stop - start)

end Text

end SvServer
