import Mathlib.Data.List.Basic
import SvServer.Hdl.Token
import SvServer.Proofs.Text.Position

/-!
# Places and texts of tokens

No lexeme is empty, so the lexemes of a text begin one after the other at boundaries between its
characters, and so do its tokens. A token is known by the position at which it begins. The text of an
identifier has no blank in it, also when it is an escaped one.
-/

namespace SvServer.Hdl

namespace Lexeme

variable {text : List Char} {lexeme : Lexeme}

/-- **A lexeme of a text is what its first character calls for**, in front of some rest. -/
theorem exists_classified (member : lexeme ∈ ofChars text) : ∃ c rest,
    lexeme = ⟨(classify c rest).1, c :: rest.take (classify c rest).2⟩ := by
  fun_induction ofChars text with
  | case1 => exact absurd member List.not_mem_nil
  | case2 c rest kind length classified ih =>
      rcases List.mem_cons.1 member with rfl | member
      · exact ⟨c, rest, by rw [classified]⟩
      · exact ih member

theorem chars_ne_nil (member : lexeme ∈ ofChars text) : lexeme.chars ≠ [] := by
  obtain ⟨c, rest, rfl⟩ := exists_classified member
  exact List.cons_ne_nil _ _

/-! ## Places -/

/-- A lexeme begins where those before it end. -/
theorem mem_placed {start : Nat} {lexemes : List Lexeme} {entry : Lexeme × Nat}
    (member : entry ∈ placed start lexemes) : ∃ before after,
      lexemes = before ++ entry.1 :: after ∧ entry.2 = start + Text.byteLength (flatten before) := by
  induction lexemes generalizing start with
  | nil => exact absurd member List.not_mem_nil
  | cons first rest ih =>
      rcases List.mem_cons.1 member with rfl | member
      · exact ⟨[], rest, rfl, rfl⟩
      · obtain ⟨before, after, split, place⟩ := ih member
        refine ⟨first :: before, after, by rw [split, List.cons_append], ?_⟩
        rw [place, flatten, flatten, List.flatMap_cons, Text.byteLength_append, Nat.add_assoc]

/-- Lexemes that are not empty begin one after the other. -/
theorem pairwise_placed {lexemes : List Lexeme} (filled : ∀ lexeme ∈ lexemes, lexeme.chars ≠ [])
    (start : Nat) : (placed start lexemes).Pairwise fun a b => a.2 < b.2 := by
  induction lexemes generalizing start with
  | nil => exact List.Pairwise.nil
  | cons first rest ih =>
      refine List.pairwise_cons.2
        ⟨fun entry member => ?_, ih (fun lexeme member => filled lexeme (.tail _ member)) _⟩
      obtain ⟨before, after, -, place⟩ := mem_placed member
      have longer := Text.byteLength_pos (filled first (.head _))
      show start < entry.2
      omega

theorem token?_eq_some {start : Nat} {token : Token} (h : lexeme.token? start = some token) :
    lexeme.tokenKind? = some token.kind ∧ token.text = String.ofList lexeme.contents ∧
      token.start = start := by
  rw [token?, Option.map_eq_some_iff] at h
  obtain ⟨kind, known, rfl⟩ := h
  exact ⟨known, rfl, rfl⟩

/-- Only an identifier gives an identifier, and it keeps all its characters. -/
theorem eq_of_identifier {start : Nat} {token : Token} (found : lexeme.token? start = some token)
    (kind : token.kind = .identifier) : lexeme = ⟨.identifier, token.text.toList⟩ := by
  obtain ⟨known, spelled, -⟩ := token?_eq_some found
  have identifier : lexeme.kind = .identifier := by
    rw [kind, tokenKind?] at known
    cases same : lexeme.kind <;> rw [same] at known <;> first | rfl | exact absurd known nofun
  have contents : token.text.toList = lexeme.chars := by
    rw [spelled, String.toList_ofList, Lexeme.contents, identifier]
  rw [contents, ← identifier]

end Lexeme

/-- A token comes from a lexeme of the text, which begins where the token does. -/
theorem exists_placed_of_mem {text : List Char} {token : Token} (member : token ∈ tokens text) :
    ∃ lexeme, (lexeme, token.start) ∈ Lexeme.placed 0 (Lexeme.ofChars text) ∧
      lexeme.token? token.start = some token := by
  obtain ⟨⟨lexeme, start⟩, placed, found⟩ := List.mem_filterMap.1 member
  obtain ⟨-, -, rfl⟩ := Lexeme.token?_eq_some found
  exact ⟨lexeme, placed, found⟩

/-- **Tokens begin one after the other.** -/
theorem pairwise_tokens (text : List Char) :
    (tokens text).Pairwise fun a b => a.start < b.start := by
  refine (Lexeme.pairwise_placed (fun _ => Lexeme.chars_ne_nil) 0).filterMap _ ?_
  intro a b less token found token' found'
  rw [(Lexeme.token?_eq_some found).2.2, (Lexeme.token?_eq_some found').2.2]
  exact less

/-- A token begins at a boundary between characters. -/
theorem isBoundary_start {text : List Char} {token : Token} (member : token ∈ tokens text) :
    Text.IsBoundary text token.start := by
  obtain ⟨lexeme, placed, -⟩ := exists_placed_of_mem member
  obtain ⟨before, after, split, place⟩ := Lexeme.mem_placed placed
  refine ⟨Lexeme.flatten before, Lexeme.flatten (lexeme :: after), ?_, ?_⟩
  · rw [← Lexeme.flatten_ofChars text, split, Lexeme.flatten, List.flatMap_append]
    rfl
  · show token.start = _
    rw [show token.start = _ from place, Nat.zero_add]

/-- **A token is known by where it begins.** -/
theorem eq_of_position_start {text : List Char} {a b : Token} (ha : a ∈ tokens text)
    (hb : b ∈ tokens text) (same : Text.position text a.start = Text.position text b.start) :
    a = b := by
  rcases Nat.lt_trichotomy a.start b.start with less | equal | more
  · exact absurd same (Text.before_position (isBoundary_start ha) (isBoundary_start hb) less).ne
  · obtain ⟨i, here, rfl⟩ := List.getElem_of_mem ha
    obtain ⟨j, here', rfl⟩ := List.getElem_of_mem hb
    have ordered := List.pairwise_iff_getElem.1 (pairwise_tokens text)
    rcases Nat.lt_trichotomy i j with earlier | rfl | later
    · exact absurd equal (Nat.ne_of_lt (ordered i j here here' earlier))
    · rfl
    · exact absurd equal.symm (Nat.ne_of_lt (ordered j i here' here later))
  · exact absurd same.symm (Text.before_position (isBoundary_start hb) (isBoundary_start ha) more).ne

/-! ## Logical lines -/

/-- The last two characters of a text, with blanks for those it does not have. -/
def lastTwo (text : List Char) : Char × Char :=
  text.foldl (fun last c => (last.2, c)) (' ', ' ')

theorem lastTwo_concat (text : List Char) (c : Char) :
    lastTwo (text ++ [c]) = ((lastTwo text).2, c) := by
  rw [lastTwo, List.foldl_append]
  rfl

theorem lastTwo_snd (text : List Char) : (lastTwo text).2 = text.getLast?.getD ' ' := by
  rcases List.eq_nil_or_concat text with rfl | ⟨front, c, rfl⟩
  · rfl
  · rw [List.concat_eq_append, lastTwo_concat, List.getLast?_append]
    rfl

/-- Characters before the start of the line are only passed. -/
theorem logicalLineEndFrom_append {start : Nat} (front rest : List Char) (position : Nat)
    (passed : position + Text.byteLength front ≤ start) (last : Char × Char) :
    logicalLineEndFrom start (front ++ rest) position last.1 last.2 =
      logicalLineEndFrom start rest (position + Text.byteLength front)
        (front.foldl (fun last c => (last.2, c)) last).1
        (front.foldl (fun last c => (last.2, c)) last).2 := by
  induction front generalizing position last with
  | nil => rfl
  | cons c front ih =>
      rw [Text.byteLength_cons] at passed
      have size := c.utf8Size_pos
      have further := ih (position + c.utf8Size) (by omega) (last.2, c)
      rw [List.cons_append, logicalLineEndFrom, if_neg (by omega), further, Text.byteLength_cons,
        Nat.add_assoc, List.foldl_cons]

/-- A logical line looks back at the last two characters before it. -/
theorem logicalLineEnd_eq_from (front rest : List Char) :
    logicalLineEnd (front ++ rest) (Text.byteLength front) =
      logicalLineEndFrom (Text.byteLength front) rest (Text.byteLength front) (lastTwo front).1
        (lastTwo front).2 := by
  have passed := logicalLineEndFrom_append front rest 0 (Nat.le_of_eq (Nat.zero_add _)) (' ', ' ')
  rw [logicalLineEnd, passed, Nat.zero_add]
  rfl

/-! ## Texts of identifiers -/

theorem isAsciiBlank_of_isIdentifierChar {c : Char} (h : isIdentifierChar c = true) :
    Text.isAsciiBlank c = false := by
  rw [Bool.eq_false_iff]
  intro blank
  simp only [Text.isAsciiBlank, Bool.or_eq_true, decide_eq_true_eq] at blank
  rcases blank with (((rfl | rfl) | rfl) | rfl) | rfl <;> exact absurd h (by decide)

theorem mem_take_runLength {p : Char → Bool} {rest : List Char} {d : Char}
    (member : d ∈ rest.take (runLength p rest)) : p d = true := by
  rw [runLength, ← List.prefix_iff_eq_take.1 (List.takeWhile_prefix p)] at member
  exact List.all_eq_true.1 List.all_takeWhile d member

/-- An identifier begins with no blank and goes on without one. -/
theorem isAsciiBlank_of_classify {c : Char} {rest : List Char} :
    (classify c rest).1 = .identifier →
      ∀ d ∈ c :: rest.take (classify c rest).2, Text.isAsciiBlank d = false := by
  have whole : ∀ {length : Nat}, ¬Text.isAsciiBlank c = true →
      (∀ d ∈ rest.take length, Text.isAsciiBlank d = false) →
      ∀ d ∈ c :: rest.take length, Text.isAsciiBlank d = false := by
    intro length first others d member
    rcases List.mem_cons.1 member with rfl | member
    · exact (Bool.not_eq_true _).mp first
    · exact others d member
  fun_cases classify c rest with
  | case4 _ first =>
      exact fun _ => whole first fun d member =>
        isAsciiBlank_of_isIdentifierChar (mem_take_runLength member)
  | case7 first =>
      refine fun _ => whole first fun d member => ?_
      have continued := mem_take_runLength member
      exact (Bool.not_eq_true' _).mp continued
  | _ => exact fun found => absurd found nofun

theorem Lexeme.isAsciiBlank_of_identifier {text : List Char} {lexeme : Lexeme}
    (member : lexeme ∈ ofChars text) (kind : lexeme.kind = .identifier) :
    ∀ c ∈ lexeme.chars, Text.isAsciiBlank c = false := by
  obtain ⟨c, rest, rfl⟩ := exists_classified member
  exact isAsciiBlank_of_classify kind

/-- **The text of an identifier has no blank in it.** -/
theorem isAsciiBlank_of_identifier {text : List Char} {token : Token} (member : token ∈ tokens text)
    (kind : token.kind = .identifier) : ∀ c ∈ token.text.toList, Text.isAsciiBlank c = false := by
  obtain ⟨lexeme, placed, found⟩ := exists_placed_of_mem member
  obtain ⟨before, after, split, -⟩ := Lexeme.mem_placed placed
  have listed : lexeme ∈ Lexeme.ofChars text := by
    rw [split]
    exact List.mem_append_right _ (.head _)
  rw [Lexeme.eq_of_identifier found kind] at listed
  exact Lexeme.isAsciiBlank_of_identifier listed rfl

end SvServer.Hdl
