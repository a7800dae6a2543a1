import Mathlib.Data.List.Induction
import SvServer.Proofs.Hdl.ByteLexer

/-!
# The end of a logical line in bytes

The end of a logical line is found in the bytes of a text, from the start of the line on. Whether a line
break is escaped is told by the one or two bytes before it, which may stand before the line; none is
looked at before the beginning of the text.
-/

namespace SvServer.Hdl

open Text (bytes byte byteLength IsBoundary)

namespace Bytewise

/-- The byte at a distance before an offset. -/
def before? (bytes : List UInt8) (offset distance : Nat) : Option UInt8 :=
  (minus? offset distance).bind fun place => bytes[place]?

/-- Whether a backslash escapes the line break at an offset. A carriage return may stand between the
two. -/
def isEscaped? (bytes : List UInt8) (offset : Nat) : Option Bool :=
  if 0 < offset then
    (before? bytes offset 1).bind fun last =>
      if last = byte '\\' then some true
      else if last = byte '\r' ∧ 1 < offset then
        (before? bytes offset 2).map (· == byte '\\')
      else some false
  else some false

/-- The end of a logical line, from an offset on. -/
def lineEnd? (bytes : List UInt8) (offset : Nat) : Option Nat :=
  if offset < bytes.length then
    match bytes[offset]? with
    | none => none
    | some b =>
      if b = byte '\n' then
        match isEscaped? bytes offset with
        | none => none
        | some escaped => if escaped then lineEnd? bytes (offset + 1) else some offset
      else lineEnd? bytes (offset + 1)
  else some bytes.length
termination_by bytes.length - offset

/-! ## The characters before an offset -/

theorem byteLength_concat (text : List Char) (c : Char) :
    byteLength (text ++ [c]) = byteLength text + c.utf8Size := by
  rw [Text.byteLength_append, Text.byteLength_cons, Text.byteLength_nil, Nat.add_zero]

/-- The byte before a boundary is one of the character before it. -/
theorem exists_before?_eq (front : List Char) (c : Char) (rest : List Char) :
    ∃ b ∈ String.utf8EncodeChar c,
      before? (bytes (front ++ c :: rest)) (byteLength front + c.utf8Size) 1 = some b := by
  have size : (String.utf8EncodeChar c).length = c.utf8Size := String.length_utf8EncodeChar c
  have positive := c.utf8Size_pos
  have within : c.utf8Size - 1 < (String.utf8EncodeChar c).length := by omega
  refine ⟨_, List.getElem_mem within, ?_⟩
  rw [before?, minus?_of_le (by omega), Option.bind_some, Text.bytes_append, Text.bytes_cons,
    List.getElem?_append_right (by rw [Text.length_bytes]; omega), Text.length_bytes,
    show byteLength front + c.utf8Size - 1 - byteLength front = c.utf8Size - 1 by omega,
    List.getElem?_append_left within, List.getElem?_eq_getElem within]

theorem before?_succ (bytes : List UInt8) (offset distance : Nat) :
    before? bytes (offset + 1) (distance + 1) = before? bytes offset distance := by
  rw [before?, before?, minus?, minus?]
  simp only [Nat.add_le_add_iff_right, Nat.add_sub_add_right]

/-- **The bytes before an offset tell whether it is escaped.** -/
theorem isEscaped?_bytes (front rest : List Char) :
    isEscaped? (bytes (front ++ rest)) (byteLength front) =
      some (decide ((lastTwo front).2 = '\\' ∨
        (lastTwo front).2 = '\r' ∧ (lastTwo front).1 = '\\')) := by
  cases front using List.reverseRecOn with
  | nil => rfl
  | append_singleton front last =>
      have positive := last.utf8Size_pos
      obtain ⟨b, member, found⟩ := exists_before?_eq front last rest
      rw [List.append_assoc, List.singleton_append, byteLength_concat, isEscaped?,
        if_pos (Nat.add_pos_right _ positive), found, Option.bind_some, lastTwo_concat]
      by_cases slash : last = '\\'
      · rw [if_pos ((eq_byte_iff (by decide) member).2 slash), decide_eq_true (.inl slash)]
      rw [if_neg (mt (eq_byte_iff (by decide) member).1 slash)]
      by_cases carriage : last = '\r'
      · subst carriage
        -- The byte before the carriage return is looked at if there is one.
        cases front using List.reverseRecOn with
        | nil => rw [if_neg fun both => absurd both.2 (by decide)]; rfl
        | append_singleton front before =>
            have positive := before.utf8Size_pos
            obtain ⟨b', member', found'⟩ := exists_before?_eq front before ('\r' :: rest)
            have size : Char.utf8Size '\r' = 1 := rfl
            have second : 1 < byteLength (front ++ [before]) + Char.utf8Size '\r' := by
              rw [byteLength_concat, size]
              omega
            rw [if_pos ⟨(eq_byte_iff (by decide) member).2 rfl, second⟩, size, before?_succ, List.append_assoc, List.singleton_append,
              byteLength_concat, found', lastTwo_concat, Option.map_some, Option.some_inj,
              Bool.eq_iff_iff, beq_iff_eq, decide_eq_true_eq, eq_byte_iff (by decide) member']
            exact ⟨fun escapes => .inr ⟨rfl, escapes⟩, fun escapes =>
              escapes.elim (fun same => absurd same slash) And.right⟩
      · rw [if_neg fun both => carriage ((eq_byte_iff (by decide) member).1 both.1),
          decide_eq_false fun escapes => escapes.elim slash fun both => carriage both.1]

/-- Bytes without a line feed are passed over. -/
theorem lineEnd?_append {passed : List UInt8} (unbroken : ∀ b ∈ passed, b ≠ byte '\n')
    (before rest : List UInt8) : lineEnd? (before ++ (passed ++ rest)) before.length =
      lineEnd? (before ++ (passed ++ rest)) (before.length + passed.length) := by
  induction passed generalizing before with
  | nil => rfl
  | cons b passed ih =>
      obtain ⟨other, unbroken⟩ := List.forall_mem_cons.1 unbroken
      have further := ih unbroken (before ++ [b])
      rw [List.append_assoc, List.singleton_append, List.length_append, List.length_singleton] at further
      have within : before.length < (before ++ (b :: passed ++ rest)).length := by
        rw [List.length_append, List.cons_append, List.length_cons]
        omega
      rw [lineEnd?, if_pos within, List.getElem?_append_right (Nat.le_refl _), Nat.sub_self]
      simp only [List.cons_append, List.getElem?_cons_zero, if_neg other]
      rw [further, List.length_cons]
      congr 1
      omega

theorem lineEnd?_from {start : Nat} (front rest : List Char) (ahead : start ≤ byteLength front) :
    lineEnd? (bytes (front ++ rest)) (byteLength front) =
      some (logicalLineEndFrom start rest (byteLength front) (lastTwo front).1 (lastTwo front).2) := by
  induction rest generalizing front with
  | nil =>
      rw [lineEnd?, List.append_nil, Text.length_bytes, if_neg (Nat.lt_irrefl _)]
      rfl
  | cons c rest ih =>
      have further := ih (front ++ [c]) (by
        rw [byteLength_concat]
        exact Nat.le_add_right_of_le ahead)
      rw [List.append_assoc, List.singleton_append, byteLength_concat, lastTwo_concat] at further
      rw [logicalLineEndFrom]
      by_cases lineBreak : c = '\n'
      · subst lineBreak
        have within : byteLength front < (bytes (front ++ '\n' :: rest)).length := by
          rw [Text.length_bytes, Text.byteLength_append]
          exact Nat.lt_add_of_pos_right (Text.byteLength_pos (List.cons_ne_nil _ _))
        have here : (bytes (front ++ '\n' :: rest))[byteLength front]? = some (byte '\n') := by
          rw [← Text.length_bytes, Text.bytes_append, List.getElem?_append_right (Nat.le_refl _),
            Nat.sub_self, bytes_cons_of_narrow (by decide), List.getElem?_cons_zero]
        rw [lineEnd?, if_pos within, here, isEscaped?_bytes]
        dsimp only
        rw [if_pos rfl, show byteLength front + 1 = byteLength front + Char.utf8Size '\n' from rfl, further]
        by_cases escaped : (lastTwo front).2 = '\\' ∨
            (lastTwo front).2 = '\r' ∧ (lastTwo front).1 = '\\'
        · rw [if_pos (decide_eq_true escaped), if_neg fun ends => ends.2.2 escaped]
        · rw [if_neg (mt of_decide_eq_true escaped), if_pos ⟨ahead, rfl, escaped⟩]
      · have unbroken : ∀ b ∈ String.utf8EncodeChar c, b ≠ byte '\n' := fun b member =>
          mt (eq_byte_iff (by decide) member).1 lineBreak
        have passed := lineEnd?_append unbroken (bytes front) (bytes rest)
        rw [← Text.bytes_cons, ← Text.bytes_append, Text.length_bytes, String.length_utf8EncodeChar] at passed
        rw [passed, further, if_neg fun both => lineBreak both.2.1]

/-- **The end of a logical line is found in the bytes.** -/
theorem lineEnd?_eq_some {text : List Char} {start : Nat} (isBoundary : IsBoundary text start) :
    lineEnd? (bytes text) start = some (logicalLineEnd text start) := by
  obtain ⟨front, rest, rfl, rfl⟩ := isBoundary
  rw [lineEnd?_from front rest (Nat.le_refl _), logicalLineEnd_eq_from]

end Bytewise

end SvServer.Hdl
