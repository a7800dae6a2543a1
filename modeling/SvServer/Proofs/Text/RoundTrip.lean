import SvServer.Proofs.Text.Offset

/-!
# Positions there and back

A boundary of a text is found again from its position, and every position leads to a boundary. Both ways
go through the table of lines: the position of an offset counts the columns of its line up to the offset,
and the offset of a position counts the same columns until there are enough.

An offset inside of a character is no boundary. Its position is that of the end of the character, as
the column is counted before the next look at the offset. So there and back lead from it to that end, and
never to the start of the character.
-/

namespace SvServer

/-- The line and the column both fit into 32 bits. -/
def Position.Fits (position : Position) : Prop :=
  position.line < UInt32.size ∧ position.character < UInt32.size

namespace Text

/-! ## Offsets from the table of lines -/

/-- The offset at which a column is reached, or at which the line ends. The characters ahead begin at
`start`, and `units` columns of the line lie behind. -/
def seek (column : Nat) : (start units : Nat) → List Char → Nat
  | start, _, [] => start
  | start, units, c :: rest =>
    if column ≤ units ∨ c = '\n' then start
    else seek column (start + c.utf8Size) (units + units16 c) rest

/-- The offset of a position, found in the table of lines. -/
def offset? (text : List Char) (place : Position) : Option Nat :=
  let whole := bytes text
  match (lineStarts whole)[place.line]? with
  | none => some whole.length
  | some start => (slice? text start whole.length).map (seek place.character start 0)

/-- Counting up to a column leads as far as counting down from it. -/
theorem seek_eq (column start units : Nat) (row : List Char) :
    seek column start units row = start + columnOffset row (column - units) := by
  induction row generalizing start units with
  | nil => rfl
  | cons c rest ih =>
      simp only [seek, columnOffset, Nat.sub_eq_zero_iff_le]
      split
      · rfl
      · rw [ih, Nat.sub_sub, Nat.add_assoc]

/-- **The table gives the offset of every position.** -/
theorem offset?_eq (text : List Char) (place : Position) :
    offset? text place = some (offset text place) := by
  obtain ⟨line, column⟩ := place
  rw [offset?, length_bytes]
  dsimp only
  cases lineAt text line with
  | begins lines row split ends count leads =>
      subst split
      obtain ⟨low, table, length, -⟩ := exists_lineStarts_eq ends row
      have begun : (lineStarts (bytes (lines ++ row)))[line]? = some (byteLength lines) := by
        rw [table, ← count, ← length, List.getElem?_append_right (Nat.le_refl _), Nat.sub_self,
          List.getElem?_cons_zero]
      have cut := slice?_append lines row []
      rw [List.append_nil, ← byteLength_append] at cut
      rw [begun, leads]
      dsimp only
      rw [cut, Option.map_some, seek_eq, Nat.sub_zero]
  | missing leads few =>
      have behind : (lineStarts (bytes text))[line]? = none := by
        rw [List.getElem?_eq_none_iff, lineStarts, List.length_cons, length_lineStartsFrom]
        exact few
      rw [behind, leads]

/-! ## There and back -/

/-- **A boundary is found again from its position.** -/
theorem offset_position {text : List Char} {place : Nat} (isBoundary : IsBoundary text place) :
    offset text (position text place) = place := by
  obtain ⟨before, rest, rfl, rfl⟩ := isBoundary
  obtain ⟨lines, last, rfl, unbroken, ends⟩ := exists_lines before
  rw [List.append_assoc, byteLength_append, position_of_line ends unbroken, offset_lines ends,
    columnOffset_width unbroken]

/-- **Every position leads to a boundary.** -/
theorem isBoundary_offset (text : List Char) (place : Position) :
    IsBoundary text (offset text place) := by
  obtain ⟨line, column⟩ := place
  cases lineAt text line with
  | begins lines row split ends count leads =>
      obtain ⟨passed, ahead, rfl, -, led, -⟩ := exists_passed row column
      rw [leads, led, split, ← List.append_assoc, ← byteLength_append]
      exact isBoundary_append _ _
  | missing leads few =>
      have whole := isBoundary_append text []
      rw [List.append_nil] at whole
      rwa [leads]

/-! ## How large positions are -/

/-- No character has more columns than bytes. -/
theorem units16_le_utf8Size (c : Char) : units16 c ≤ c.utf8Size := by
  rw [units16]
  split
  · exact c.utf8Size_pos
  case isFalse wide =>
    -- One byte is enough for characters below 128 only.
    have more : c.utf8Size ≠ 1 := fun single => wide <|
      UInt32.lt_of_le_of_lt (Char.utf8Size_eq_one_iff.1 single) (by decide)
    have size := c.utf8Size_pos
    omega

/-- Lines and columns that are passed take a byte each. -/
theorem line_add_character_walk_le (text : List Char) (position : Position) :
    (walk text position).line + (walk text position).character ≤
      position.line + position.character + byteLength text := by
  induction text generalizing position with
  | nil => exact Nat.le_refl _
  | cons c rest ih =>
      have tail := ih (advance c position)
      have size := c.utf8Size_pos
      have units := units16_le_utf8Size c
      have step : (advance c position).line + (advance c position).character ≤
          position.line + position.character + c.utf8Size := by
        rw [advance]
        split <;> dsimp only <;> omega
      rw [walk, List.foldl_cons, ← walk, byteLength_cons]
      omega

/-- **The positions of a text are no larger than the text.** -/
theorem line_add_character_le (text : List Char) (place : Nat) :
    (position text place).line + (position text place).character ≤ byteLength text := by
  have walked := line_add_character_walk_le (takeBytes text place) ⟨0, 0⟩
  have whole := byteLength_append (takeBytes text place) (dropBytes text place)
  rw [takeBytes_append_dropBytes] at whole
  rw [position, positionFrom_eq_walk]
  dsimp only at walked
  omega

/-- How the positions of a text and the offsets into it go together. -/
structure Matched (text : List Char) : Prop where
  /-- A boundary is found again from its position. -/
  back : ∀ place, IsBoundary text place → offset text (position text place) = place
  /-- Of two boundaries the one further on has the later position. -/
  increases : ∀ a b, IsBoundary text a → IsBoundary text b → a < b →
    (position text a).Before (position text b)
  /-- Every position leads to a boundary within the text. -/
  lands : ∀ place, IsBoundary text (offset text place) ∧ offset text place ≤ byteLength text
  /-- Both ways go through the table of lines, within its bounds. -/
  found : (∀ place, position? text place = some (position text place)) ∧
    ∀ place, offset? text place = some (offset text place)
  /-- The positions of a text whose length fits into 32 bits fit as well. -/
  fits : byteLength text < UInt32.size → ∀ place, (position text place).Fits

/-- **Positions and offsets are inverse to each other.** -/
theorem matched_positions (text : List Char) : Matched text where
  back _ isBoundary := offset_position isBoundary
  increases _ _ isBoundary isBoundary' less := before_position isBoundary isBoundary' less
  lands place := ⟨isBoundary_offset text place, (isBoundary_offset text place).le⟩
  found := ⟨position?_eq text, offset?_eq text⟩
  fits short place := by
    have small := line_add_character_le text place
    constructor <;> omega

/-! ## Offsets that are no boundaries -/

/-- The offset lies inside of a character, between its first byte, at `start`, and its end. -/
def IsWithin (text : List Char) (start : Nat) (c : Char) (place : Nat) : Prop :=
  ∃ before rest, text = before ++ c :: rest ∧ start = byteLength before ∧
    start < place ∧ place < start + c.utf8Size

/-- What the offsets count as that are no boundaries. -/
structure Clamps (text : List Char) : Prop where
  /-- Inside of a character it is the end of the character. -/
  within : ∀ start c place, IsWithin text start c place →
    position text place = position text (start + c.utf8Size)
  /-- That is its line, at the column behind its own. -/
  behind : ∀ start c place, IsWithin text start c place →
    position text place =
      ⟨(position text start).line, (position text start).character + units16 c⟩
  /-- Past the end of the text it is that end. -/
  past : ∀ place, byteLength text ≤ place → position text place = position text (byteLength text)
  /-- The table of lines gives no other position. -/
  found : ∀ place, position? text place = some (position text place)

/-- From the first byte of a character up to its end the character itself is all that is taken. -/
theorem takeBytes_within (c : Char) (rest : List Char) {inner : Nat} (positive : 0 < inner)
    (le : inner ≤ c.utf8Size) : takeBytes (c :: rest) inner = [c] := by
  rw [takeBytes_cons c rest positive, Nat.sub_eq_zero_of_le le, takeBytes.eq_1]

/-- **The position behind the first byte of a character** is the one behind the character. -/
theorem position_append_within (before : List Char) (c : Char) (rest : List Char) {inner : Nat}
    (positive : 0 < inner) (le : inner ≤ c.utf8Size) :
    position (before ++ c :: rest) (byteLength before + inner) =
      advance c (position (before ++ c :: rest) (byteLength before)) := by
  rw [position, position, positionFrom_append, positionFrom_eq_walk, takeBytes_append_add,
    takeBytes_within c rest positive le, walk, List.foldl_append]
  rfl

/-- **An offset inside of a character counts as the end of the character**, and one past the end of the
text as that end. -/
theorem clamps_positions (text : List Char) : Clamps text where
  within start c place := by
    rintro ⟨before, rest, rfl, rfl, more, less⟩
    obtain ⟨inner, rfl⟩ := Nat.exists_eq_add_of_lt more
    rw [Nat.add_assoc, position_append_within before c rest (Nat.succ_pos _) (by omega),
      position_append_within before c rest c.utf8Size_pos (Nat.le_refl _)]
  behind start c place := by
    rintro ⟨before, rest, rfl, rfl, more, less⟩
    obtain ⟨inner, rfl⟩ := Nat.exists_eq_add_of_lt more
    -- A line break has one byte only.
    have other : ¬c = '\n' := by
      rintro rfl
      have single : ('\n' : Char).utf8Size = 1 := by decide
      omega
    rw [Nat.add_assoc, position_append_within before c rest (Nat.succ_pos _) (by omega), advance,
      if_neg other]
  past place le := by
    rw [position, position, positionFrom_eq_walk, positionFrom_eq_walk, takeBytes_of_le le,
      takeBytes_all]
  found := position?_eq text

/-- **The position inside of a character is not that of its start.** -/
theorem position_within_ne_start :
    IsWithin ['é'] 0 'é' 1 ∧ position ['é'] 0 = ⟨0, 0⟩ ∧ position ['é'] 1 = ⟨0, 1⟩ :=
  ⟨⟨[], [], rfl, rfl, by decide, by decide⟩, by decide, by decide⟩

end Text

end SvServer
