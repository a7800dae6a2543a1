import Mathlib.Data.List.Induction
import SvServer.Proofs.Text.Bytes

/-!
# Positions from a table of lines

The position of an offset is found in a table of the offsets at which the lines of a text begin: the
line is the last one that begins at the offset or before it, and the column is counted from there. The
table is never looked up outside of its bounds, the line begins at a boundary of the text, and the
position is the one that walking over the characters gives.
-/

namespace SvServer.Text

/-! ## The table -/

/-- The offsets behind the line breaks of some bytes, of which the first stands at `position`. -/
def lineStartsFrom : (position : Nat) → List UInt8 → List Nat
  | _, [] => []
  | position, b :: rest =>
    if b = 0x0A then (position + 1) :: lineStartsFrom (position + 1) rest
    else lineStartsFrom (position + 1) rest

/-- The offsets at which lines begin. -/
def lineStarts (bytes : List UInt8) : List Nat := 0 :: lineStartsFrom 0 bytes

/-- The line that holds an offset: the one that begins there, or else the one before the first that
begins behind it. -/
def lineAt? (starts : List Nat) (offset : Nat) : Option Nat :=
  match starts.idxOf? offset with
  | some line => some line
  | none => minus? (starts.countP (· < offset)) 1

/-- The columns of the characters up to an offset, or up to the end of the line. -/
def columnsUpTo (offset : Nat) : (position : Nat) → List Char → Nat
  | _, [] => 0
  | position, c :: rest =>
    if offset ≤ position ∨ c = '\n' then 0
    else units16 c + columnsUpTo offset (position + c.utf8Size) rest

/-- The position of an offset, found in the table of lines. -/
def position? (text : List Char) (offset : Nat) : Option Position := do
  let whole := bytes text
  let offset := min offset whole.length
  let starts := lineStarts whole
  let line ← lineAt? starts offset
  let start ← starts[line]?
  let rest ← slice? text start whole.length
  return ⟨line, columnsUpTo offset start rest⟩

/-! ## Lines of the table -/

theorem lineStartsFrom_append (position : Nat) (xs ys : List UInt8) :
    lineStartsFrom position (xs ++ ys) =
      lineStartsFrom position xs ++ lineStartsFrom (position + xs.length) ys := by
  induction xs generalizing position with
  | nil => rfl
  | cons b xs ih =>
      have further : position + 1 + xs.length = position + (b :: xs).length := by
        rw [List.length_cons]
        omega
      rw [List.cons_append, lineStartsFrom, lineStartsFrom, ih, further]
      split <;> rfl

/-- Lines begin behind the bytes that were passed, and not behind all of them. -/
theorem bounds_of_mem_lineStartsFrom {position start : Nat} {bytes : List UInt8}
    (member : start ∈ lineStartsFrom position bytes) :
    position < start ∧ start ≤ position + bytes.length := by
  induction bytes generalizing position with
  | nil => cases member
  | cons b rest ih =>
      rw [List.length_cons]
      rw [lineStartsFrom] at member
      split at member
      · rcases List.mem_cons.1 member with rfl | member
        · omega
        · have := ih member
          omega
      · have := ih member
        omega

/-- The line feed is a byte of its own. -/
theorem agree_lineFeed : Agree (· == 0x0A) (· = '\n') := .char (d := '\n') (by decide)

/-- Bytes without a line feed begin no line. -/
theorem lineStartsFrom_eq_nil {bytes : List UInt8} (none : ∀ b ∈ bytes, ¬b = 0x0A) (position : Nat) :
    lineStartsFrom position bytes = [] := by
  induction bytes generalizing position with
  | nil => rfl
  | cons b rest ih =>
      obtain ⟨first, others⟩ := List.forall_mem_cons.1 none
      rw [lineStartsFrom, if_neg first, ih others]

/-- A line break begins a line, and no other character does. -/
theorem lineStartsFrom_utf8EncodeChar (position : Nat) (c : Char) :
    lineStartsFrom position (String.utf8EncodeChar c) = if c = '\n' then [position + 1] else [] := by
  split
  case isTrue lineBreak =>
    subst lineBreak
    rfl
  case isFalse other =>
    refine lineStartsFrom_eq_nil (fun b member lineFeed => other ?_) position
    have same := agree_lineFeed c b member
    rw [lineFeed] at same
    exact of_decide_eq_true same.symm

theorem lineStartsFrom_eq_nil_of_unbroken {text : List Char} (unbroken : '\n' ∉ text)
    (position : Nat) : lineStartsFrom position (bytes text) = [] := by
  induction text generalizing position with
  | nil => rfl
  | cons c rest ih =>
      have other : ¬c = '\n' := fun same => unbroken (same ▸ List.mem_cons_self)
      rw [bytes_cons, lineStartsFrom_append, lineStartsFrom_utf8EncodeChar, if_neg other,
        ih (fun member => unbroken (.tail _ member))]
      rfl

theorem length_lineStartsFrom (position : Nat) (text : List Char) :
    (lineStartsFrom position (bytes text)).length = text.count '\n' := by
  induction text generalizing position with
  | nil => rfl
  | cons c rest ih =>
      rw [bytes_cons, lineStartsFrom_append, List.length_append, ih, lineStartsFrom_utf8EncodeChar,
        List.count_cons]
      by_cases lineBreak : c = '\n'
      · rw [if_pos lineBreak, if_pos (beq_iff_eq.2 lineBreak)]
        exact Nat.add_comm _ _
      · rw [if_neg lineBreak, if_neg (by simpa using lineBreak)]
        exact Nat.zero_add _

/-- **The line of an offset is found** where no line begins between its beginning and the offset. -/
theorem lineAt?_append {low high : List Nat} {start offset : Nat} (before : ∀ x ∈ low, x < start)
    (within : start ≤ offset) (behind : ∀ x ∈ high, offset < x) :
    lineAt? (low ++ start :: high) offset = some low.length := by
  rw [lineAt?]
  rcases Nat.eq_or_lt_of_le within with rfl | less
  · have first : (low ++ start :: high).idxOf? start = some low.length := by
      rw [List.idxOf?_eq_some_iff]
      refine ⟨by simp, by simp, fun j earlier => ?_⟩
      rw [List.getElem_append_left earlier]
      exact Nat.ne_of_lt (before _ (List.getElem_mem earlier))
    rw [first]
  · have absent : (low ++ start :: high).idxOf? offset = none := by
      rw [List.idxOf?_eq_none_iff, List.mem_append, List.mem_cons]
      rintro (member | rfl | member)
      · have := before offset member
        omega
      · exact Nat.lt_irrefl _ less
      · exact Nat.lt_irrefl _ (behind offset member)
    have count : (low ++ start :: high).countP (· < offset) = low.length + 1 := by
      rw [List.countP_append, List.countP_cons_of_pos (by simpa using less),
        List.countP_eq_length.2 (fun x member => decide_eq_true (Nat.lt_trans (before x member) less)),
        List.countP_eq_zero.2 (fun x member => by simpa using Nat.le_of_lt (behind x member))]
    rw [absent, count]
    exact minus?_of_le (Nat.succ_pos _)

/-! ## Positions -/

/-- A text up to an offset ends in the line of the offset. -/
theorem exists_lines (before : List Char) : ∃ lines last, before = lines ++ last ∧ '\n' ∉ last ∧
    (lines = [] ∨ ∃ front, lines = front ++ ['\n']) := by
  induction before using List.reverseRecOn with
  | nil => exact ⟨[], [], rfl, List.not_mem_nil, .inl rfl⟩
  | append_singleton before c ih =>
      by_cases lineBreak : c = '\n'
      · exact ⟨before ++ [c], [], (List.append_nil _).symm, List.not_mem_nil,
          .inr ⟨before, by rw [lineBreak]⟩⟩
      · obtain ⟨lines, last, rfl, unbroken, ends⟩ := ih
        refine ⟨lines, last ++ [c], List.append_assoc _ _ _, ?_, ends⟩
        rw [List.mem_append, List.mem_singleton]
        rintro (member | same)
        · exact unbroken member
        · exact lineBreak same.symm

/-- The columns of a text. -/
def width (text : List Char) : Nat := text.foldr (fun c total => units16 c + total) 0

/-- The column behind some characters of one line. -/
theorem walk_of_unbroken {last : List Char} (unbroken : '\n' ∉ last) (position : Position) :
    walk last position = ⟨position.line, position.character + width last⟩ := by
  induction last generalizing position with
  | nil => rfl
  | cons c rest ih =>
      have other : ¬c = '\n' := fun same => unbroken (same ▸ List.mem_cons_self)
      have tail := ih (fun member => unbroken (.tail _ member)) (advance c position)
      rw [walk, List.foldl_cons, ← walk, tail, advance, if_neg other, Nat.add_assoc]
      rfl

/-- Every line break that is passed is a line further. -/
theorem line_walk (text : List Char) (position : Position) :
    (walk text position).line = position.line + text.count '\n' := by
  induction text generalizing position with
  | nil => rfl
  | cons c rest ih =>
      rw [walk, List.foldl_cons, ← walk, ih, advance, List.count_cons]
      by_cases lineBreak : c = '\n'
      · rw [if_pos lineBreak, if_pos (beq_iff_eq.2 lineBreak)]
        dsimp only
        omega
      · rw [if_neg lineBreak, if_neg (by simpa using lineBreak), Nat.add_zero]

/-- Walking over whole lines leads to the beginning of the next one. -/
theorem walk_lines {lines : List Char} (ends : lines = [] ∨ ∃ front, lines = front ++ ['\n']) :
    walk lines ⟨0, 0⟩ = ⟨lines.count '\n', 0⟩ := by
  have line := line_walk lines ⟨0, 0⟩
  rw [Nat.zero_add] at line
  have character : (walk lines ⟨0, 0⟩).character = 0 := by
    rcases ends with rfl | ⟨front, rfl⟩
    · rfl
    · rw [walk, List.foldl_append]
      rfl
  exact congrArg₂ Position.mk line character

/-- The columns up to an offset in one line are those of the characters that begin before it. -/
theorem columnsUpTo_eq {text : List Char} {offset position : Nat}
    (unbroken : '\n' ∉ takeBytes text (offset - position)) :
    columnsUpTo offset position text = width (takeBytes text (offset - position)) := by
  induction text generalizing position with
  | nil => cases offset - position <;> rfl
  | cons c rest ih =>
      rcases Nat.lt_or_ge position offset with less | passed
      · have positive : 0 < offset - position := Nat.sub_pos_of_lt less
        rw [takeBytes_cons c rest positive, Nat.sub_sub] at unbroken ⊢
        have other : ¬c = '\n' := fun same => unbroken (same ▸ List.mem_cons_self)
        rw [columnsUpTo, if_neg (not_or.2 ⟨Nat.not_le_of_lt less, other⟩),
          ih fun member => unbroken (.tail _ member)]
        rfl
      · rw [columnsUpTo, if_pos (.inl passed), Nat.sub_eq_zero_of_le passed]
        rfl

/-- The table of a text, at the line that begins behind some whole lines. -/
theorem exists_lineStarts_eq {lines : List Char} (ends : lines = [] ∨ ∃ front, lines = front ++ ['\n'])
    (rest : List Char) : ∃ low, lineStarts (bytes (lines ++ rest)) =
        low ++ byteLength lines :: lineStartsFrom (byteLength lines) (bytes rest) ∧
      low.length = lines.count '\n' ∧ ∀ x ∈ low, x < byteLength lines := by
  rcases ends with rfl | ⟨front, rfl⟩
  · exact ⟨[], rfl, rfl, fun _ member => (List.not_mem_nil member).elim⟩
  · have whole : byteLength (front ++ ['\n']) = byteLength front + 1 := byteLength_append _ _
    refine ⟨0 :: lineStartsFrom 0 (bytes front), ?_, ?_, ?_⟩
    · rw [lineStarts, bytes_append, bytes_append, lineStartsFrom_append, lineStartsFrom_append,
        List.length_append, length_bytes, length_bytes, whole, Nat.zero_add, Nat.zero_add,
        List.append_assoc]
      rfl
    · rw [List.length_cons, length_lineStartsFrom, List.count_append]
      rfl
    · rw [whole]
      refine List.forall_mem_cons.2 ⟨Nat.succ_pos _, fun x member => ?_⟩
      have bound := (bounds_of_mem_lineStartsFrom member).2
      rw [length_bytes] at bound
      omega

/-- Whole lines that an offset is behind are passed. -/
theorem byteLength_lines_le {text lines last : List Char} {offset : Nat}
    (ends : lines = [] ∨ ∃ front, lines = front ++ ['\n'])
    (taken : takeBytes text offset = lines ++ last) : byteLength lines ≤ offset := by
  rcases ends with rfl | ⟨front, rfl⟩
  · exact Nat.zero_le _
  · rw [List.append_assoc] at taken
    have less := lt_of_takeBytes_eq taken
    rw [byteLength_append]
    exact less

/-- **The table gives the position of every offset**, be it a boundary or not. -/
theorem position?_eq (text : List Char) (offset : Nat) :
    position? text offset = some (position text offset) := by
  -- An offset past the end takes in as much as the end.
  have same : takeBytes text (min offset (byteLength text)) = takeBytes text offset := by
    rcases Nat.le_total offset (byteLength text) with le | le
    · rw [Nat.min_eq_left le]
    · rw [Nat.min_eq_right le, takeBytes_all, takeBytes_of_le le]
  have bounded := Nat.min_le_right offset (byteLength text)
  rw [position, positionFrom_eq_walk, ← same, position?, length_bytes]
  generalize min offset (byteLength text) = reached at bounded
  obtain ⟨lines, last, taken, unbroken, ends⟩ := exists_lines (takeBytes text reached)
  have within := le_byteLength_takeBytes bounded
  have begun := byteLength_lines_le ends taken
  have whole := takeBytes_append_dropBytes text reached
  rw [taken] at within whole
  generalize dropBytes text reached = rest at whole
  rw [List.append_assoc] at whole
  subst whole
  have inLine : takeBytes (last ++ rest) (reached - byteLength lines) = last := by
    have split := takeBytes_append_add lines (last ++ rest) (reached - byteLength lines)
    rw [Nat.add_sub_cancel' begun, taken] at split
    exact (List.append_cancel_left split).symm
  obtain ⟨low, table, count, before⟩ := exists_lineStarts_eq ends (last ++ rest)
  -- No line begins in the last one before the offset.
  have behind : ∀ x ∈ lineStartsFrom (byteLength lines) (bytes (last ++ rest)), reached < x := by
    intro x member
    rw [bytes_append, lineStartsFrom_append, lineStartsFrom_eq_nil_of_unbroken unbroken,
      List.nil_append, length_bytes] at member
    rw [byteLength_append] at within
    exact Nat.lt_of_le_of_lt within (bounds_of_mem_lineStartsFrom member).1
  have line := lineAt?_append before begun behind
  have cut : slice? (lines ++ (last ++ rest)) (byteLength lines) (byteLength (lines ++ (last ++ rest))) =
      some (last ++ rest) := by
    have whole := slice?_append lines (last ++ rest) []
    rwa [List.append_nil, ← byteLength_append] at whole
  have columns : columnsUpTo reached (byteLength lines) (last ++ rest) = width last := by
    rw [columnsUpTo_eq (by rwa [inLine]), inLine]
  rw [table, line]
  dsimp only [Option.bind_eq_bind, Option.bind_some]
  rw [List.getElem?_append_right (Nat.le_refl _), Nat.sub_self, List.getElem?_cons_zero]
  dsimp only [Option.bind_some]
  rw [cut]
  dsimp only [Option.bind_some]
  rw [columns, taken, walk, List.foldl_append, ← walk, ← walk, walk_lines ends,
    walk_of_unbroken unbroken, count, Nat.zero_add]
  rfl

end SvServer.Text
