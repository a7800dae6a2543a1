import SvServer.Proofs.Text.LineTable

/-!
# Where positions lead

A position leads to its line and then on through it, column by column, up to the end of the line. So
an offset says where a position led, but not which position it was: a column behind the end of the
line leads to that end, a column between the two units of a character behind the character, and all
lines behind the last to the end of the text.
-/

namespace SvServer.Text

/-! ## Columns -/

@[simp] theorem width_nil : width [] = 0 := rfl

@[simp] theorem width_cons (c : Char) (rest : List Char) :
    width (c :: rest) = units16 c + width rest := rfl

theorem width_append (before rest : List Char) :
    width (before ++ rest) = width before + width rest := by
  induction before with
  | nil => rw [List.nil_append, width_nil, Nat.zero_add]
  | cons c before ih => rw [List.cons_append, width_cons, width_cons, ih, Nat.add_assoc]

theorem units16_cases (c : Char) : units16 c = 1 ∨ units16 c = 2 := by
  rw [units16]
  split
  · exact .inl rfl
  · exact .inr rfl

theorem width_pos {text : List Char} (filled : text ≠ []) : 0 < width text := by
  cases text with
  | nil => exact absurd rfl filled
  | cons c rest =>
      rw [width_cons]
      rcases units16_cases c with units | units <;> omega

theorem columnOffset_zero (row : List Char) : columnOffset row 0 = 0 := by
  cases row with
  | nil => rfl
  | cons c rest => exact if_pos (.inl rfl)

/-- **The columns of some characters lead behind them.** -/
theorem columnOffset_width {front : List Char} (unbroken : '\n' ∉ front) (rest : List Char) :
    columnOffset (front ++ rest) (width front) = byteLength front := by
  induction front with
  | nil => exact columnOffset_zero rest
  | cons c front ih =>
      have other : ¬c = '\n' := fun same => unbroken (same ▸ List.mem_cons_self)
      have positive : width (c :: front) ≠ 0 := Nat.ne_of_gt (width_pos (List.cons_ne_nil _ _))
      rw [List.cons_append, columnOffset, if_neg (not_or.2 ⟨positive, other⟩), width_cons,
        Nat.add_sub_cancel_left, ih fun member => unbroken (.tail _ member), byteLength_cons]

/-- A column further on leads further, if the line goes on. -/
theorem lt_columnOffset {front : List Char} {c : Char} (unbroken : '\n' ∉ front ++ [c])
    {column : Nat} (less : width front < column) (rest : List Char) :
    byteLength front < columnOffset (front ++ c :: rest) column := by
  induction front generalizing column with
  | nil =>
      have other : ¬c = '\n' := fun same => unbroken (same ▸ List.mem_cons_self)
      rw [width_nil] at less
      rw [List.nil_append, columnOffset, if_neg (not_or.2 ⟨Nat.ne_of_gt less, other⟩)]
      exact Nat.lt_of_lt_of_le c.utf8Size_pos (Nat.le_add_right _ _)
  | cons first front ih =>
      have other : ¬first = '\n' := fun same => unbroken (same ▸ List.mem_cons_self)
      rw [width_cons] at less
      have tail : byteLength front < columnOffset (front ++ c :: rest) (column - units16 first) :=
        ih (fun member => unbroken (.tail _ member)) (by omega)
      rw [List.cons_append, columnOffset, if_neg (not_or.2 ⟨by omega, other⟩), byteLength_cons]
      omega

/-- How the walk to a column ends: right at the column, at the end of the line, or one column too
far, behind a character of two units. -/
inductive Stop (passed ahead : List Char) (column : Nat) : Prop where
  | exact (reached : width passed = column)
  | short (less : width passed < column) (ends : ahead = [] ∨ ahead.head? = some '\n')
  | pair (front : List Char) (c : Char) (whole : passed = front ++ [c]) (wide : units16 c = 2)
      (beyond : width passed = column + 1)

/-- **What a column leads past.** -/
theorem exists_passed (row : List Char) (column : Nat) : ∃ passed ahead, row = passed ++ ahead ∧
    '\n' ∉ passed ∧ columnOffset row column = byteLength passed ∧ Stop passed ahead column := by
  induction row generalizing column with
  | nil =>
      refine ⟨[], [], rfl, List.not_mem_nil, rfl, ?_⟩
      rcases Nat.eq_zero_or_pos column with rfl | positive
      · exact .exact rfl
      · exact .short positive (.inl rfl)
  | cons c rest ih =>
      by_cases still : column = 0 ∨ c = '\n'
      · refine ⟨[], c :: rest, rfl, List.not_mem_nil, if_pos still, ?_⟩
        rcases Nat.eq_zero_or_pos column with rfl | positive
        · exact .exact rfl
        · rcases still with none | rfl
          · exact absurd none (Nat.ne_of_gt positive)
          · exact .short positive (.inr rfl)
      · have further : columnOffset (c :: rest) column =
            c.utf8Size + columnOffset rest (column - units16 c) := by
          rw [columnOffset, if_neg still]
        rw [not_or] at still
        by_cases inside : column < units16 c
        · -- The column lies between the two units of the character.
          refine ⟨[c], rest, rfl, by simpa using Ne.symm still.2, ?_, ?_⟩
          · rw [further, Nat.sub_eq_zero_of_le (Nat.le_of_lt inside), columnOffset_zero]
            rfl
          · rcases units16_cases c with units | units
            · omega
            · refine .pair [] c rfl units ?_
              rw [width_cons, width_nil]
              omega
        · obtain ⟨passed, ahead, rfl, unbroken, led, stop⟩ := ih (column - units16 c)
          refine ⟨c :: passed, ahead, rfl, ?_, by rw [further, led, byteLength_cons], ?_⟩
          · rw [List.mem_cons, not_or]
            exact ⟨Ne.symm still.2, unbroken⟩
          · cases stop with
            | exact reached => exact .exact (by rw [width_cons]; omega)
            | short less ends => exact .short (by rw [width_cons]; omega) ends
            | pair front d whole wide beyond =>
                refine .pair (c :: front) d ?_ wide (by rw [width_cons]; omega)
                rw [whole, List.cons_append]

/-! ## Lines -/

/-- Whole lines without their first character are whole lines. -/
theorem ends_tail {c : Char} {lines : List Char}
    (ends : c :: lines = [] ∨ ∃ front, c :: lines = front ++ ['\n']) :
    (c = '\n' ∧ lines = []) ∨ ∃ front, lines = front ++ ['\n'] := by
  rcases ends with none | ⟨front, split⟩
  · cases none
  · cases front with
    | nil => exact .inl (List.cons.inj split)
    | cons d front => exact .inr ⟨front, (List.cons.inj split).2⟩

theorem ends_cons {c : Char} {lines : List Char} (first : lines = [] → c = '\n')
    (ends : lines = [] ∨ ∃ front, lines = front ++ ['\n']) :
    ∃ front, c :: lines = front ++ ['\n'] := by
  rcases ends with none | ⟨front, rfl⟩
  · exact ⟨[], by rw [first none, none]; rfl⟩
  · exact ⟨c :: front, rfl⟩

/-- **A line that begins behind some whole lines** is led to past them. -/
theorem offset_lines {lines : List Char} (ends : lines = [] ∨ ∃ front, lines = front ++ ['\n'])
    (row : List Char) (column : Nat) : offset (lines ++ row) ⟨lines.count '\n', column⟩ =
      byteLength lines + columnOffset row column := by
  induction lines with
  | nil => rw [List.nil_append, List.count_nil, offset, byteLength_nil, Nat.zero_add]
  | cons c lines ih =>
      have behind := ends_tail ends
      by_cases lineBreak : c = '\n'
      · rw [lineBreak, List.count_cons_self, List.cons_append, offset, if_pos rfl,
          ih (behind.imp_left And.right), byteLength_cons, Nat.add_assoc]
      · obtain ⟨front, split⟩ := behind.resolve_left fun single => lineBreak single.1
        have further := ih (.inr ⟨front, split⟩)
        have more : lines.count '\n' = front.count '\n' + 1 := by
          rw [split, List.count_append]
          rfl
        rw [more] at further
        rw [List.count_cons_of_ne lineBreak, more, List.cons_append, offset, if_neg lineBreak, further,
          byteLength_cons, Nat.add_assoc]

/-- A text has a line for each of its line breaks, and one more. -/
theorem exists_line {text : List Char} {line : Nat} (le : line ≤ text.count '\n') :
    ∃ lines row, text = lines ++ row ∧ (lines = [] ∨ ∃ front, lines = front ++ ['\n']) ∧
      lines.count '\n' = line := by
  induction text generalizing line with
  | nil => exact ⟨[], [], rfl, .inl rfl, (Nat.le_zero.1 le).symm⟩
  | cons c rest ih =>
      cases line with
      | zero => exact ⟨[], c :: rest, rfl, .inl rfl, rfl⟩
      | succ line =>
          by_cases lineBreak : c = '\n'
          · rw [lineBreak, List.count_cons_self] at le
            obtain ⟨lines, row, rfl, ends, count⟩ := ih (Nat.le_of_succ_le_succ le)
            refine ⟨c :: lines, row, rfl, .inr (ends_cons (fun _ => lineBreak) ends), ?_⟩
            rw [lineBreak, List.count_cons_self, count]
          · rw [List.count_cons_of_ne lineBreak] at le
            obtain ⟨lines, row, rfl, ends, count⟩ := ih le
            have filled : lines = [] → c = '\n' := by
              rintro rfl
              exact absurd count (Nat.succ_ne_zero line).symm
            refine ⟨c :: lines, row, rfl, .inr (ends_cons filled ends), ?_⟩
            rw [List.count_cons_of_ne lineBreak, count]

/-- **Lines behind the last lead to the end of the text.** -/
theorem offset_of_missing {text : List Char} {line : Nat} (few : text.count '\n' < line)
    (column : Nat) : offset text ⟨line, column⟩ = byteLength text := by
  obtain ⟨line, rfl⟩ := Nat.exists_eq_succ_of_ne_zero (Nat.ne_of_gt (Nat.zero_lt_of_lt few))
  induction text generalizing line with
  | nil => rw [offset]; rfl
  | cons c rest ih =>
      by_cases lineBreak : c = '\n'
      · rw [lineBreak, List.count_cons_self] at few
        have less := Nat.lt_of_succ_lt_succ few
        obtain ⟨line, rfl⟩ := Nat.exists_eq_succ_of_ne_zero (Nat.ne_of_gt (Nat.zero_lt_of_lt less))
        rw [offset, if_pos lineBreak, ih line less, byteLength_cons]
      · rw [List.count_cons_of_ne lineBreak] at few
        rw [offset, if_neg lineBreak, ih line few, byteLength_cons]

/-- What a line is in a text: it begins behind some whole lines, or lies behind the last. -/
inductive LineAt (text : List Char) (line : Nat) : Prop where
  | begins (lines row : List Char) (split : text = lines ++ row)
      (ends : lines = [] ∨ ∃ front, lines = front ++ ['\n']) (count : lines.count '\n' = line)
      (leads : ∀ column, offset text ⟨line, column⟩ = byteLength lines + columnOffset row column)
  | missing (leads : ∀ column, offset text ⟨line, column⟩ = byteLength text)
      (few : text.count '\n' < line)

/-- **A position leads to its line, and then to its column.** -/
theorem lineAt (text : List Char) (line : Nat) : LineAt text line := by
  rcases Nat.lt_or_ge (text.count '\n') line with few | le
  · exact .missing (offset_of_missing few) few
  · obtain ⟨lines, row, rfl, ends, rfl⟩ := exists_line le
    exact .begins lines row rfl ends rfl (offset_lines ends row)

/-- The position of an offset in a line. -/
theorem position_of_line {lines passed : List Char}
    (ends : lines = [] ∨ ∃ front, lines = front ++ ['\n']) (unbroken : '\n' ∉ passed)
    (ahead : List Char) : position (lines ++ (passed ++ ahead))
      (byteLength lines + byteLength passed) = ⟨lines.count '\n', width passed⟩ := by
  rw [position, ← List.append_assoc, ← byteLength_append, positionFrom_append, walk,
    List.foldl_append, ← walk, ← walk, walk_lines ends, walk_of_unbroken unbroken, Nat.zero_add]

end SvServer.Text
