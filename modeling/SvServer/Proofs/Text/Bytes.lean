import SvServer.Proofs.Text.Position

/-!
# Texts as bytes

A text is stored as the bytes of its UTF-8 form, and its offsets count those. Here texts are looked at
as their bytes: which offsets lie between two characters, what can be cut out of a text, and how many
bytes a run of characters takes. A cut that is out of order, that leaves the text or that goes through
a character has no result; the same holds of a difference below zero.
-/

namespace SvServer

/-- The difference of two numbers, if it is not below zero. -/
def minus? (a b : Nat) : Option Nat := if b ≤ a then some (a - b) else none

theorem minus?_of_le {a b : Nat} (le : b ≤ a) : minus? a b = some (a - b) := if_pos le

namespace Text

/-- The bytes of a text. -/
def bytes (text : List Char) : List UInt8 := text.flatMap String.utf8EncodeChar

/-- Bytes that continue a character. -/
def isContinuation (b : UInt8) : Bool := 0x80 ≤ b && b < 0xC0

/-! ## The bytes of a character -/

/-- What holds of each number below 256 holds of every byte. -/
theorem forall_byte {p : UInt8 → Bool}
    (all : (List.range 256).all (fun n => p (.ofNat n)) = true) (b : UInt8) : p b = true := by
  have tried := List.all_eq_true.1 all b.toNat (List.mem_range.2 b.toNat_lt)
  rwa [UInt8.ofNat_toNat] at tried

theorem isContinuation_tail (b : UInt8) : isContinuation (b &&& 0x3f ||| 0x80) = true :=
  forall_byte (p := fun b => isContinuation (b &&& 0x3f ||| 0x80)) (by decide +kernel) b

/-- The bytes of a character: one byte below 128, or a first byte from 192 on and others that continue
it. -/
theorem utf8EncodeChar_cases (c : Char) :
    (c.toNat < 128 ∧ String.utf8EncodeChar c = [c.val.toUInt8]) ∨
      128 ≤ c.toNat ∧ ∃ first rest, String.utf8EncodeChar c = first :: rest ∧ 0xC0 ≤ first ∧
        ∀ b ∈ rest, isContinuation b = true := by
  have leads (b : UInt8) : decide (0xC0 ≤ (b &&& 0x1f ||| 0xc0)) = true :=
    forall_byte (p := fun b => decide (0xC0 ≤ (b &&& 0x1f ||| 0xc0))) (by decide +kernel) b
  have leads' (b : UInt8) : decide (0xC0 ≤ (b &&& 0x0f ||| 0xe0)) = true :=
    forall_byte (p := fun b => decide (0xC0 ≤ (b &&& 0x0f ||| 0xe0))) (by decide +kernel) b
  have leads'' (b : UInt8) : decide (0xC0 ≤ (b &&& 0x07 ||| 0xf0)) = true :=
    forall_byte (p := fun b => decide (0xC0 ≤ (b &&& 0x07 ||| 0xf0))) (by decide +kernel) b
  have one : c.utf8Size = 1 ↔ c.toNat < 128 := by
    rw [Char.utf8Size_eq_one_iff, UInt32.le_iff_toNat_le]
    exact Nat.lt_succ_iff.symm
  rcases c.utf8Size_eq with size | size | size | size
  · exact .inl ⟨one.1 size, String.utf8EncodeChar_eq_singleton size⟩
  · refine .inr ⟨Nat.le_of_not_lt (mt one.2 (by omega)), _, _,
      String.utf8EncodeChar_eq_cons_cons size, of_decide_eq_true (leads _), ?_⟩
    exact List.forall_mem_singleton.2 (isContinuation_tail _)
  · refine .inr ⟨Nat.le_of_not_lt (mt one.2 (by omega)), _, _,
      String.utf8EncodeChar_eq_cons_cons_cons size, of_decide_eq_true (leads' _), ?_⟩
    exact List.forall_mem_cons.2 ⟨isContinuation_tail _,
      List.forall_mem_singleton.2 (isContinuation_tail _)⟩
  · refine .inr ⟨Nat.le_of_not_lt (mt one.2 (by omega)), _, _,
      String.utf8EncodeChar_eq_cons_cons_cons_cons size, of_decide_eq_true (leads'' _), ?_⟩
    exact List.forall_mem_cons.2 ⟨isContinuation_tail _, List.forall_mem_cons.2
      ⟨isContinuation_tail _, List.forall_mem_singleton.2 (isContinuation_tail _)⟩⟩

/-- Below 128 a character is one byte. -/
theorem utf8EncodeChar_of_narrow {c : Char} (narrow : c.toNat < 128) :
    String.utf8EncodeChar c = [c.val.toUInt8] := by
  rcases utf8EncodeChar_cases c with ⟨-, encoded⟩ | ⟨wide, -⟩
  · exact encoded
  · exact absurd narrow (Nat.not_lt.2 wide)

/-- From 128 on all bytes of a character are from 128 on as well. -/
theorem le_toNat_of_mem {c : Char} (wide : 128 ≤ c.toNat) {b : UInt8}
    (member : b ∈ String.utf8EncodeChar c) : 128 ≤ b.toNat := by
  rcases utf8EncodeChar_cases c with ⟨narrow, -⟩ | ⟨-, first, others, encoded, leads, continued⟩
  · exact absurd narrow (Nat.not_lt.2 wide)
  · rw [encoded] at member
    rcases List.mem_cons.1 member with rfl | member
    · exact Nat.le_trans (by decide) (UInt8.le_iff_toNat_le.1 leads)
    · have inside := continued b member
      rw [isContinuation, Bool.and_eq_true, decide_eq_true_eq] at inside
      exact UInt8.le_iff_toNat_le.1 inside.1

/-- The byte of a character below 128. -/
def byte (c : Char) : UInt8 := c.val.toUInt8

theorem toNat_byte {c : Char} (narrow : c.toNat < 128) : (byte c).toNat = c.toNat := by
  have code : (byte c).toNat = c.toNat % 256 := UInt32.toNat_toUInt8 _
  omega

/-- A byte of a character is its code, or both are from 128 on. -/
theorem code_of_mem {c : Char} {b : UInt8} (member : b ∈ String.utf8EncodeChar c) :
    b.toNat = c.toNat ∨ 128 ≤ b.toNat ∧ 128 ≤ c.toNat := by
  by_cases narrow : c.toNat < 128
  · rw [utf8EncodeChar_of_narrow narrow, List.mem_singleton] at member
    exact .inl (by rw [member]; exact toNat_byte narrow)
  · have wide := Nat.le_of_not_lt narrow
    exact .inr ⟨le_toNat_of_mem wide member, wide⟩

@[simp] theorem bytes_nil : bytes [] = [] := rfl

theorem bytes_cons (c : Char) (rest : List Char) :
    bytes (c :: rest) = String.utf8EncodeChar c ++ bytes rest := rfl

theorem bytes_append (before rest : List Char) :
    bytes (before ++ rest) = bytes before ++ bytes rest := List.flatMap_append

@[simp] theorem length_bytes (text : List Char) : (bytes text).length = byteLength text := by
  induction text with
  | nil => rfl
  | cons c rest ih =>
      rw [bytes_cons, List.length_append, String.length_utf8EncodeChar, ih, byteLength_cons]

theorem drop_bytes (before rest : List Char) :
    (bytes (before ++ rest)).drop (byteLength before) = bytes rest := by
  rw [bytes_append, ← length_bytes, List.drop_left]

/-! ## Boundaries -/

/-- Whether an offset is an end of the text or lies between two characters, told by the bytes. -/
def isBoundaryAt (bytes : List UInt8) (offset : Nat) : Bool :=
  offset == 0 || offset == bytes.length || bytes[offset]?.any (!isContinuation ·)

/-- The first byte of a character continues none. -/
theorem exists_utf8EncodeChar_eq (c : Char) : ∃ first rest,
    String.utf8EncodeChar c = first :: rest ∧ isContinuation first = false ∧
      ∀ b ∈ rest, isContinuation b = true := by
  rcases utf8EncodeChar_cases c with ⟨narrow, encoded⟩ | ⟨-, first, rest, encoded, leads, others⟩
  · refine ⟨_, [], encoded, ?_, fun _ member => (List.not_mem_nil member).elim⟩
    have small : c.val.toUInt8.toNat < 128 := by
      rw [UInt32.toNat_toUInt8]
      exact Nat.lt_of_le_of_lt (Nat.mod_le _ _) narrow
    rw [isContinuation, Bool.and_eq_false_iff, decide_eq_false_iff_not, UInt8.le_iff_toNat_le]
    exact .inl (Nat.not_le_of_lt small)
  · refine ⟨first, rest, encoded, ?_, others⟩
    rw [isContinuation, Bool.and_eq_false_iff, decide_eq_false_iff_not (p := first < 0xC0),
      UInt8.not_lt]
    exact .inr leads

/-- The bytes of a text begin with none that continues a character. -/
theorem any_head_bytes (text : List Char) :
    ((bytes text).length == 0 || (bytes text)[0]?.any (!isContinuation ·)) = true := by
  cases text with
  | nil => rfl
  | cons c rest =>
      obtain ⟨first, others, encoded, leads, -⟩ := exists_utf8EncodeChar_eq c
      rw [bytes_cons, encoded, List.cons_append, List.getElem?_cons_zero, Option.any_some, leads,
        Bool.not_false, Bool.or_true]

/-- Inside of a character the bytes tell no boundary, and behind it they tell those of the rest. -/
theorem isBoundaryAt_cons (c : Char) (rest : List Char) {offset : Nat} (positive : 0 < offset) :
    isBoundaryAt (bytes (c :: rest)) offset =
      (decide (c.utf8Size ≤ offset) && isBoundaryAt (bytes rest) (offset - c.utf8Size)) := by
  have size : (String.utf8EncodeChar c).length = c.utf8Size := String.length_utf8EncodeChar c
  have apart : (offset == 0) = false := beq_false_of_ne (Nat.ne_of_gt positive)
  by_cases within : offset < c.utf8Size
  · -- The byte at the offset is not the first one of the character.
    obtain ⟨first, others, encoded, -, continued⟩ := exists_utf8EncodeChar_eq c
    obtain ⟨place, rfl⟩ := Nat.exists_eq_succ_of_ne_zero (Nat.ne_of_gt positive)
    rw [encoded, List.length_cons] at size
    have inside : place < others.length := by omega
    have byte : (bytes (c :: rest))[place + 1]? = some others[place] := by
      rw [bytes_cons, encoded, List.cons_append, List.getElem?_cons_succ,
        List.getElem?_append_left inside, List.getElem?_eq_getElem inside]
    have short : (place + 1 == (bytes (c :: rest)).length) = false := by
      rw [length_bytes, byteLength_cons]
      exact beq_false_of_ne (by omega)
    rw [isBoundaryAt, apart, short, byte, Option.any_some, continued _ (List.getElem_mem inside),
      decide_eq_false (Nat.not_le_of_lt within)]
    rfl
  · obtain ⟨further, rfl⟩ := Nat.exists_eq_add_of_le (Nat.le_of_not_lt within)
    have byte : (bytes (c :: rest))[c.utf8Size + further]? = (bytes rest)[further]? := by
      rw [bytes_cons, List.getElem?_append_right (by omega), size, Nat.add_sub_cancel_left]
    have ends : (c.utf8Size + further == (bytes (c :: rest)).length) =
        (further == (bytes rest).length) := by
      rw [length_bytes, length_bytes, byteLength_cons, Bool.eq_iff_iff, beq_iff_eq, beq_iff_eq,
        Nat.add_left_cancel_iff]
    rw [isBoundaryAt, isBoundaryAt, apart, ends, byte, Nat.add_sub_cancel_left,
      decide_eq_true (Nat.le_add_right _ _), Bool.false_or, Bool.true_and]
    cases further with
    | zero =>
        have head := any_head_bytes rest
        rw [Bool.beq_comm] at head
        rw [head]
        rfl
    | succ further => rfl

theorem isBoundary_cons_iff (c : Char) (rest : List Char) {offset : Nat} (positive : 0 < offset) :
    IsBoundary (c :: rest) offset ↔ c.utf8Size ≤ offset ∧ IsBoundary rest (offset - c.utf8Size) := by
  constructor
  · rintro ⟨before, behind, split, rfl⟩
    cases before with
    | nil => exact absurd positive (Nat.lt_irrefl 0)
    | cons d before =>
        obtain ⟨rfl, rfl⟩ := List.cons.inj split
        rw [byteLength_cons, Nat.add_sub_cancel_left]
        exact ⟨Nat.le_add_right _ _, isBoundary_append _ _⟩
  · rintro ⟨le, before, behind, rfl, same⟩
    exact ⟨c :: before, behind, rfl, by rw [byteLength_cons, ← same, Nat.add_sub_cancel' le]⟩

/-- **The bytes tell where characters begin and end.** -/
theorem isBoundaryAt_iff (text : List Char) (offset : Nat) :
    isBoundaryAt (bytes text) offset = true ↔ IsBoundary text offset := by
  induction text generalizing offset with
  | nil =>
      simp only [isBoundaryAt, bytes_nil, List.length_nil, List.getElem?_nil, Option.any_none,
        Bool.or_false, Bool.or_self, beq_iff_eq]
      constructor
      · rintro rfl
        exact isBoundary_append [] []
      · exact fun isBoundary => Nat.le_zero.1 isBoundary.le
  | cons c rest ih =>
      rcases Nat.eq_zero_or_pos offset with rfl | positive
      · exact ⟨fun _ => isBoundary_append [] (c :: rest), fun _ => rfl⟩
      · rw [isBoundaryAt_cons c rest positive, isBoundary_cons_iff c rest positive,
          Bool.and_eq_true, decide_eq_true_eq, ih]

/-! ## Cuts -/

/-- The text between two offsets, if it can be cut out. -/
def slice? (text : List Char) (start stop : Nat) : Option (List Char) :=
  if start ≤ stop ∧ isBoundaryAt (bytes text) start = true ∧ isBoundaryAt (bytes text) stop = true then
    some (slice text start stop)
  else none

/-- **A stretch can be cut out of its text.** -/
theorem slice?_eq_some {text : List Char} {start stop : Nat} (stretch : IsStretch text start stop) :
    slice? text start stop = some (slice text start stop) :=
  if_pos ⟨stretch.ordered, (isBoundaryAt_iff text start).2 stretch.start,
    (isBoundaryAt_iff text stop).2 stretch.stop⟩

/-- A cut through a character has no result. -/
example : slice? ['é'] 1 2 = none := by decide +kernel

theorem slice?_append (before inner rest : List Char) :
    slice? (before ++ (inner ++ rest)) (byteLength before) (byteLength before + byteLength inner) =
      some inner := by
  rw [slice?_eq_some (isStretch_append before inner rest), slice_eq]

/-! ## Runs -/

/-- A class of bytes and one of characters agree: the bytes of a character are all in the one if the
character is in the other, and none of them otherwise. -/
def Agree (p : UInt8 → Bool) (q : Char → Bool) : Prop :=
  ∀ c, ∀ b ∈ String.utf8EncodeChar c, p b = q c

/-- A character below 128 is told by its byte. -/
theorem Agree.char {d : Char} (narrow : d.toNat < 128) : Agree (· == byte d) (· = d) := by
  intro c b member
  rw [Bool.eq_iff_iff, beq_iff_eq, decide_eq_true_eq, ← UInt8.toNat_inj, ← Char.toNat_inj,
    toNat_byte narrow]
  have code := code_of_mem member
  omega

theorem Agree.other {d : Char} (narrow : d.toNat < 128) : Agree (· != byte d) (· ≠ d) := by
  intro c b member
  show (b != byte d) = decide (¬c = d)
  rw [decide_not]
  exact congrArg Bool.not (Agree.char narrow c b member)

/-- A range of characters below 128 is told by its bytes. -/
theorem Agree.range {low high : Char} (above : low.toNat < 128) (below : high.toNat < 128) :
    Agree (fun b => byte low ≤ b && b ≤ byte high) (fun c => low ≤ c && c ≤ high) := by
  intro c b member
  rw [Bool.eq_iff_iff]
  simp only [Bool.and_eq_true, decide_eq_true_eq, UInt8.le_iff_toNat_le, Char.le_def,
    UInt32.le_iff_toNat_le, Char.toNat_val, toNat_byte above, toNat_byte below]
  have code := code_of_mem member
  omega

theorem Agree.or {p p' : UInt8 → Bool} {q q' : Char → Bool} (agree : Agree p q)
    (agree' : Agree p' q') : Agree (fun b => p b || p' b) (fun c => q c || q' c) :=
  fun c b member => congr (congrArg Bool.or (agree c b member)) (agree' c b member)

theorem Agree.and {p p' : UInt8 → Bool} {q q' : Char → Bool} (agree : Agree p q)
    (agree' : Agree p' q') : Agree (fun b => p b && p' b) (fun c => q c && q' c) :=
  fun c b member => congr (congrArg Bool.and (agree c b member)) (agree' c b member)

/-- The other bytes agree with the other characters. -/
theorem Agree.not {p : UInt8 → Bool} {q : Char → Bool} (agree : Agree p q) :
    Agree (!p ·) (!q ·) :=
  fun c b member => congrArg Bool.not (agree c b member)

/-- The length of the run of bytes at the beginning. -/
def run (p : UInt8 → Bool) (bytes : List UInt8) : Nat := (bytes.takeWhile p).length

/-- **A run of bytes** takes as much as the run of their characters. -/
theorem run_bytes {p : UInt8 → Bool} {q : Char → Bool} (agree : Agree p q) (text : List Char) :
    run p (bytes text) = byteLength (text.takeWhile q) := by
  induction text with
  | nil => rfl
  | cons c rest ih =>
      obtain ⟨first, others, encoded, -, -⟩ := exists_utf8EncodeChar_eq c
      rw [run, bytes_cons, List.takeWhile_cons]
      cases inside : q c with
      | true =>
          have all : ∀ b ∈ String.utf8EncodeChar c, p b = true :=
            fun b member => (agree c b member).trans inside
          rw [List.takeWhile_append_of_pos all, List.length_append, String.length_utf8EncodeChar,
            if_pos rfl, byteLength_cons, ← ih, run]
      | false =>
          have stops : p first = false := (agree c first (by rw [encoded]; exact .head _)).trans inside
          rw [encoded, List.cons_append, List.takeWhile_cons, stops]
          rfl

end Text

end SvServer
