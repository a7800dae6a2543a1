import SvServer.Proofs.Hdl.Respacing
import SvServer.Proofs.Unit.Imbalances

/-!
# The stored form of a macro body

The stored body has one line, so the lexer reads it as the lines of the body put one behind the other
with spaces for the line breaks. Up to the first line comment that changes nothing of what the
structure checks go by; what stands behind that comment is lost, also on the lines after it.
-/

namespace SvServer.Unit

open Hdl

/-- The text of a body with its continuations read as line breaks. -/
def readLines : List Char → List Char
  | [] => []
  | '\\' :: '\r' :: '\n' :: rest => '\n' :: readLines rest
  | '\\' :: '\n' :: rest => '\n' :: readLines rest
  | c :: rest => c :: readLines rest

/-! ## Words with one space between two of them -/

/-- Two characters that are the same, or blanks both. -/
def Alike (c d : Char) : Prop := c = d ∨ Text.isBlank c = true ∧ Text.isBlank d = true

theorem joinLines_alike (raw : List Char) : List.Forall₂ Alike (joinLines raw) (readLines raw) := by
  fun_induction joinLines raw with
  | case1 => exact .nil
  | case2 rest ih => exact .cons (.inr (by decide)) ih
  | case3 rest ih => exact .cons (.inr (by decide)) ih
  | case4 c rest long short ih =>
      rw [readLines]
      · exact .cons (.inl rfl) ih
      · exact long
      · exact short

theorem words_blank {c : Char} (blank : Text.isBlank c = true) (rest : List Char) :
    Text.words (c :: rest) = Text.words rest := by
  rw [Text.words.eq_def]
  exact if_pos blank

/-- A character in front of another one of its word. -/
def extend (c : Char) : List (List Char) → List (List Char)
  | [] => [[c]]
  | word :: more => (c :: word) :: more

theorem words_solid {c d : Char} (solid : Text.isBlank c = false) (rest : List Char) :
    Text.words (c :: d :: rest) =
      if Text.isBlank d then [c] :: Text.words (d :: rest) else extend c (Text.words (d :: rest)) := by
  rw [Text.words.eq_def]
  refine (if_neg (Bool.eq_false_iff.1 solid)).trans ?_
  cases Text.words (d :: rest) <;> rfl

theorem words_single {c : Char} (solid : Text.isBlank c = false) : Text.words [c] = [[c]] := by
  rw [Text.words.eq_def]
  exact if_neg (Bool.eq_false_iff.1 solid)

theorem words_congr {text text' : List Char} (alike : List.Forall₂ Alike text text') :
    Text.words text = Text.words text' := by
  induction alike with
  | nil => rfl
  | @cons c d rest rest' same others ih =>
      rcases same with rfl | ⟨blank, blank'⟩
      case inr => rw [words_blank blank, words_blank blank', ih]
      case inl =>
        cases blank : Text.isBlank c with
        | true => rw [words_blank blank, words_blank blank, ih]
        | false =>
            cases others with
            | nil => rfl
            | @cons e f _ _ same _ =>
                have sameKind : Text.isBlank e = Text.isBlank f := by
                  rcases same with rfl | ⟨blank, blank'⟩
                  · rfl
                  · rw [blank, blank']
                rw [words_solid blank, words_solid blank, ih, sameKind]

/-- Words with one space between two of them. -/
def joined (words : List (List Char)) : List Char := [' '].intercalate words

theorem toList_storedBody (raw : List Char) :
    (storedBody raw).toList = joined (Text.words (readLines raw)) := by
  rw [storedBody, String.toList_intercalate, words_congr (joinLines_alike raw), List.map_map, joined]
  congr 1
  exact List.map_id'' (fun _ => String.toList_ofList) _

theorem joined_extend (c : Char) (words : List (List Char)) :
    joined (extend c words) = c :: joined words := by
  cases words with
  | nil => rfl
  | cons word more =>
      cases more with
      | nil => rfl
      | cons next others =>
          rw [extend, joined, joined, List.intercalate_cons_cons, List.intercalate_cons_cons]
          rfl

theorem respaced_joined (text : List Char) : Respaced true text (joined (Text.words text)) := by
  induction text with
  | nil => exact .done
  | cons c rest ih =>
      cases blank : Text.isBlank c with
      | true =>
          rw [words_blank blank]
          exact .more blank ih
      | false =>
          cases rest with
          | nil =>
              rw [words_single blank]
              exact .char blank .done
          | cons d rest =>
              rw [words_solid blank]
              split
              case isTrue next =>
                have left := ih.tail_of_blank next
                cases words : Text.words (d :: rest) with
                | nil =>
                    rw [words] at left
                    exact .char blank (.trailing next left)
                | cons word more =>
                    rw [words] at left
                    rw [joined, List.intercalate_cons_cons]
                    exact .char blank (.blank next left)
              case isFalse next =>
                rw [joined_extend]
                exact .char blank (ih.of_solid ((Bool.not_eq_true _).mp next))

/-! ## What is read of a stored body -/

/-- **A stored body keeps what is read before the first line comment.** It keeps all of it if and only
if nothing of that kind stands behind the comment. -/
theorem outline_storedBody (raw : List Char)
    (whole : Unbroken (Lexeme.ofChars (readLines raw))) :
    outline (storedBody raw).toList =
        (uncommented (Lexeme.ofChars (readLines raw))).filterMap Lexeme.outline? ∧
      (outline (storedBody raw).toList = outline (readLines raw) ↔
        ∀ lexeme ∈ (Lexeme.ofChars (readLines raw)).dropWhile (·.kind ≠ .lineComment),
          lexeme.outline? = none) := by
  have kept : outline (storedBody raw).toList =
      (uncommented (Lexeme.ofChars (readLines raw))).filterMap Lexeme.outline? := by
    rw [toList_storedBody]
    exact outline_respaced _ (respaced_joined _) whole
  refine ⟨kept, ?_⟩
  rw [kept, outline_eq]
  nth_rewrite 2 [← List.takeWhile_append_dropWhile (p := fun lexeme => decide (lexeme.kind ≠ .lineComment))
    (l := Lexeme.ofChars (readLines raw))]
  rw [List.filterMap_append, uncommented, List.self_eq_append_right,
    List.filterMap_eq_nil_iff]

/-- A continued body with a comment on its last line is stored with all that is read of it. -/
theorem outline_storedBody_of_last_comment :
    Unbroken (Lexeme.ofChars (readLines " begin \\\n  x = 4'h3; \\\n end // open".toList)) ∧
      outline (storedBody " begin \\\n  x = 4'h3; \\\n end // open".toList).toList =
        [(.identifier, "begin"), (.identifier, "x"), (.identifier, "end")] := by
  have whole : Unbroken
      (Lexeme.ofChars (readLines " begin \\\n  x = 4'h3; \\\n end // open".toList)) := by
    decide +kernel
  refine ⟨whole, (outline_storedBody _ whole).1.trans ?_⟩
  decide +kernel

/-- **A line comment ends the stored body.** The block that the body closes on its last line stays
open wherever the macro is used. -/
theorem outline_storedBody_ne :
    let raw := " begin // open \\\n  x = 1; \\\n end"
    let text := "`define BLK" ++ raw ++ "\nmodule m;\ninitial `BLK\nendmodule\n"
    outline (storedBody raw.toList).toList = [(.identifier, "begin")] ∧
      outline (readLines raw.toList) =
        [(.identifier, "begin"), (.identifier, "x"), (.identifier, "end")] ∧
      (compileUnit ⟨loneSources text, .empty, .warning⟩ (.ofString "/p/top.sv")).diagnostics.map
        (·.name) = [.unterminatedBlock] := by
  decide +kernel

end SvServer.Unit
