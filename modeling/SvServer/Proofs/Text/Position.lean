import SvServer.Text.Position

/-!
# Positions of character boundaries

Walking over a text, every character moves the position on: to the next line, or to a later column of
the same line. So of two boundaries between characters the one that is further on has the later
position, and no two boundaries share one.
-/

namespace SvServer

/-- An earlier line, or an earlier column of the same line. -/
def Position.Before (a b : Position) : Prop :=
  a.line < b.line ∨ a.line = b.line ∧ a.character < b.character

theorem Position.Before.trans {a b c : Position} (hab : a.Before b) (hbc : b.Before c) :
    a.Before c := by
  unfold Before at *
  omega

theorem Position.Before.ne {a b : Position} (h : a.Before b) : a ≠ b := by
  rintro rfl
  unfold Before at h
  omega

namespace Text

/-! ## Lengths in bytes -/

@[simp] theorem byteLength_nil : byteLength [] = 0 := rfl

@[simp] theorem byteLength_cons (c : Char) (rest : List Char) :
    byteLength (c :: rest) = c.utf8Size + byteLength rest := rfl

theorem byteLength_append (before rest : List Char) :
    byteLength (before ++ rest) = byteLength before + byteLength rest := by
  induction before with
  | nil => rw [List.nil_append, byteLength_nil, Nat.zero_add]
  | cons c before ih => rw [List.cons_append, byteLength_cons, byteLength_cons, ih, Nat.add_assoc]

theorem byteLength_pos {text : List Char} (filled : text ≠ []) : 0 < byteLength text := by
  cases text with
  | nil => exact absurd rfl filled
  | cons c rest => exact Nat.lt_of_lt_of_le c.utf8Size_pos (Nat.le_add_right _ _)

/-! ## Parts of a text -/

theorem dropBytes_append (before rest : List Char) (count : Nat) :
    dropBytes (before ++ rest) (byteLength before + count) = dropBytes rest count := by
  induction before with
  | nil => rw [List.nil_append, byteLength_nil, Nat.zero_add]
  | cons c before ih =>
      obtain ⟨size, positive⟩ : ∃ size, c.utf8Size = size + 1 :=
        Nat.exists_eq_succ_of_ne_zero (Nat.pos_iff_ne_zero.1 c.utf8Size_pos)
      rw [List.cons_append, byteLength_cons, ← ih, positive,
        show size + 1 + byteLength before + count = size + byteLength before + count + 1 by omega,
        dropBytes, positive]
      congr 1
      omega

theorem takeBytes_cons (c : Char) (rest : List Char) {count : Nat} (positive : 0 < count) :
    takeBytes (c :: rest) count = c :: takeBytes rest (count - c.utf8Size) := by
  cases count with
  | zero => exact absurd positive (Nat.lt_irrefl 0)
  | succ count => rfl

theorem takeBytes_append {before : List Char} {count : Nat} (short : count ≤ byteLength before)
    (rest : List Char) : takeBytes (before ++ rest) count = takeBytes before count := by
  induction before generalizing count with
  | nil =>
      rw [Nat.le_zero.1 short]
      cases rest <;> rfl
  | cons c before ih =>
      cases count with
      | zero => rfl
      | succ count =>
          rw [byteLength_cons] at short
          rw [List.cons_append, takeBytes, takeBytes, ih (by omega)]

/-- What is taken goes through a text that is short enough, and on behind it. -/
theorem takeBytes_append_add (before rest : List Char) (count : Nat) :
    takeBytes (before ++ rest) (byteLength before + count) = before ++ takeBytes rest count := by
  induction before with
  | nil => rw [List.nil_append, byteLength_nil, Nat.zero_add, List.nil_append]
  | cons c before ih =>
      have size := c.utf8Size_pos
      rw [List.cons_append, byteLength_cons, takeBytes_cons _ _ (by omega), Nat.add_assoc,
        Nat.add_sub_cancel_left, ih, List.cons_append]

theorem takeBytes_of_le {text : List Char} {count : Nat} (le : byteLength text ≤ count) :
    takeBytes text count = text := by
  have taken := takeBytes_append_add text [] (count - byteLength text)
  rw [Nat.add_sub_cancel' le, List.append_nil] at taken
  rw [taken]
  cases count - byteLength text <;> exact List.append_nil _

theorem takeBytes_all (text : List Char) : takeBytes text (byteLength text) = text :=
  takeBytes_of_le (Nat.le_refl _)

theorem takeBytes_append_dropBytes (text : List Char) (count : Nat) :
    takeBytes text count ++ dropBytes text count = text := by
  induction text generalizing count with
  | nil => cases count <;> rfl
  | cons c rest ih =>
      cases count with
      | zero => rfl
      | succ count => exact congrArg (c :: ·) (ih _)

/-- What is taken reaches as far as the text does. -/
theorem le_byteLength_takeBytes {text : List Char} {count : Nat} (le : count ≤ byteLength text) :
    count ≤ byteLength (takeBytes text count) := by
  induction text generalizing count with
  | nil =>
      rw [Nat.le_zero.1 le]
      exact Nat.zero_le _
  | cons c rest ih =>
      rcases Nat.eq_zero_or_pos count with rfl | positive
      · exact Nat.zero_le _
      · rw [byteLength_cons] at le
        have further : count - c.utf8Size ≤ byteLength (takeBytes rest (count - c.utf8Size)) :=
          ih (by omega)
        rw [takeBytes_cons c rest positive, byteLength_cons]
        omega

theorem pos_of_takeBytes_eq_cons {text behind : List Char} {c : Char} {count : Nat}
    (taken : takeBytes text count = c :: behind) : 0 < count := by
  refine Nat.pos_of_ne_zero fun none => ?_
  rw [none, takeBytes.eq_1] at taken
  cases taken

/-- Only characters that begin before the offset are taken. -/
theorem lt_of_takeBytes_eq {text front behind : List Char} {c : Char} {count : Nat}
    (taken : takeBytes text count = front ++ c :: behind) : byteLength front < count := by
  induction front generalizing text count with
  | nil => exact pos_of_takeBytes_eq_cons taken
  | cons d front ih =>
      have positive := pos_of_takeBytes_eq_cons taken
      cases text with
      | nil =>
          obtain ⟨count, rfl⟩ := Nat.exists_eq_succ_of_ne_zero (Nat.ne_of_gt positive)
          cases taken
      | cons first rest =>
          rw [takeBytes_cons first rest positive, List.cons_append] at taken
          obtain ⟨rfl, further⟩ := List.cons.inj taken
          have less := ih further
          rw [byteLength_cons]
          omega

theorem dropBytes_all (before rest : List Char) :
    dropBytes (before ++ rest) (byteLength before) = rest := by
  have dropped := dropBytes_append before rest 0
  rw [Nat.add_zero] at dropped
  rw [dropped]
  cases rest <;> rfl

theorem slice_append (before rest : List Char) (start stop : Nat) :
    slice (before ++ rest) (byteLength before + start) (byteLength before + stop) =
      slice rest start stop := by
  rw [slice, slice, dropBytes_append, Nat.add_sub_add_left]

/-- A part of a text that begins at a boundary does not depend on what stands behind it. -/
theorem slice_append_of_le {before inner : List Char} {stop : Nat}
    (short : stop ≤ byteLength (before ++ inner)) (rest : List Char) :
    slice (before ++ inner ++ rest) (byteLength before) stop =
      slice (before ++ inner) (byteLength before) stop := by
  rw [byteLength_append] at short
  rw [slice, slice, List.append_assoc, dropBytes_all, dropBytes_all,
    takeBytes_append (by omega)]

/-! ## Walking on -/

/-- The position after some more characters. -/
def walk (text : List Char) (position : Position) : Position :=
  text.foldl (fun position c => advance c position) position

theorem before_advance (c : Char) (position : Position) : position.Before (advance c position) := by
  rw [advance]
  split
  · exact .inl (Nat.lt_succ_self _)
  · refine .inr ⟨rfl, Nat.lt_add_of_pos_right ?_⟩
    rw [units16]
    split <;> decide

/-- **Every character moves the position on.** -/
theorem before_walk {text : List Char} (filled : text ≠ []) (position : Position) :
    position.Before (walk text position) := by
  induction text generalizing position with
  | nil => exact absurd rfl filled
  | cons c rest ih =>
      cases rest with
      | nil => exact before_advance c position
      | cons d more => exact (before_advance c position).trans (ih (List.cons_ne_nil _ _) _)

/-- The position of an offset lies behind the characters that begin before it. -/
theorem positionFrom_eq_walk (text : List Char) (offset : Nat) (position : Position) :
    positionFrom text offset position = walk (takeBytes text offset) position := by
  induction text generalizing offset position with
  | nil => cases offset <;> rfl
  | cons c rest ih =>
      rcases Nat.eq_zero_or_pos offset with rfl | positive
      · rfl
      · rw [positionFrom, if_neg (Nat.ne_of_gt positive), takeBytes_cons c rest positive, ih]
        rfl

theorem positionFrom_append (before rest : List Char) (position : Position) :
    positionFrom (before ++ rest) (byteLength before) position = walk before position := by
  rw [positionFrom_eq_walk, takeBytes_append (Nat.le_refl _), takeBytes_all]

/-! ## Boundaries -/

/-- The offset is that of a boundary between characters, or of an end of the text. -/
def IsBoundary (text : List Char) (offset : Nat) : Prop :=
  ∃ before rest, text = before ++ rest ∧ offset = byteLength before

/-- **Of two boundaries the one further on has the later position.** -/
theorem before_position {text : List Char} {a b : Nat} (isBoundary : IsBoundary text a)
    (isBoundary' : IsBoundary text b) (less : a < b) :
    (position text a).Before (position text b) := by
  obtain ⟨before, rest, rfl, rfl⟩ := isBoundary
  obtain ⟨before', rest', split, rfl⟩ := isBoundary'
  rw [position, position, positionFrom_append]
  rw [split, positionFrom_append]
  -- The text up to the first boundary is a beginning of the text up to the second.
  rcases List.append_eq_append_iff.1 split with ⟨between, rfl, -⟩ | ⟨between, rfl, -⟩
  · have filled : between ≠ [] := by
      rintro rfl
      rw [List.append_nil] at less
      exact absurd less (Nat.lt_irrefl _)
    rw [walk, walk, List.foldl_append]
    exact before_walk filled _
  · rw [byteLength_append] at less
    exact absurd less (Nat.not_lt.2 (Nat.le_add_right _ _))

theorem isBoundary_append (before rest : List Char) :
    IsBoundary (before ++ rest) (byteLength before) := ⟨before, rest, rfl, rfl⟩

theorem IsBoundary.le {text : List Char} {offset : Nat} (isBoundary : IsBoundary text offset) :
    offset ≤ byteLength text := by
  obtain ⟨before, rest, rfl, rfl⟩ := isBoundary
  rw [byteLength_append]
  exact Nat.le_add_right _ _

/-! ## Stretches -/

/-- A stretch of a text, from one boundary to one that is not before it. -/
structure IsStretch (text : List Char) (start stop : Nat) : Prop where
  ordered : start ≤ stop
  start : IsBoundary text start
  stop : IsBoundary text stop

theorem isStretch_append (before inner rest : List Char) :
    IsStretch (before ++ (inner ++ rest)) (byteLength before)
      (byteLength before + byteLength inner) := by
  refine ⟨Nat.le_add_right _ _, isBoundary_append _ _, before ++ inner, rest, ?_, ?_⟩
  · rw [List.append_assoc]
  · rw [byteLength_append]

/-- A stretch has text before it, in it and behind it. -/
theorem IsStretch.exists_split {text : List Char} {start stop : Nat}
    (isStretch : IsStretch text start stop) : ∃ before inner rest,
      text = before ++ (inner ++ rest) ∧ start = byteLength before ∧
        stop = byteLength before + byteLength inner := by
  obtain ⟨ordered, ⟨before, rest, rfl, rfl⟩, ⟨front, behind, split, rfl⟩⟩ := isStretch
  rcases List.append_eq_append_iff.1 split with ⟨inner, rfl, rfl⟩ | ⟨inner, rfl, rfl⟩
  · exact ⟨before, inner, behind, rfl, rfl, byteLength_append _ _⟩
  · -- The text between the two is empty.
    rw [byteLength_append] at ordered
    have none : inner = [] := Classical.byContradiction fun filled => by
      have := byteLength_pos filled
      omega
    subst none
    exact ⟨front, [], rest, by rw [List.append_nil]; rfl, by rw [List.append_nil], rfl⟩

/-- What is cut out of a text at a stretch is what stands there. -/
theorem slice_eq (before inner rest : List Char) :
    slice (before ++ (inner ++ rest)) (byteLength before) (byteLength before + byteLength inner) =
      inner := by
  rw [slice, dropBytes_all, Nat.add_sub_cancel_left, takeBytes_append (Nat.le_refl _),
    takeBytes_all]

/-- **A stretch does not end before it starts**, as positions go. -/
theorem IsStretch.position {text : List Char} {start stop : Nat}
    (isStretch : IsStretch text start stop) :
    Text.position text start = Text.position text stop ∨
      (Text.position text start).Before (Text.position text stop) := by
  rcases Nat.eq_or_lt_of_le isStretch.ordered with same | less
  · exact .inl (congrArg _ same)
  · exact .inr (before_position isStretch.start isStretch.stop less)

end Text

end SvServer
